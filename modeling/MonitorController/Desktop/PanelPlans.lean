import Mathlib.Data.Prod.Lex
import MonitorController.Desktop.Layout
import MonitorController.Desktop.Panel
import MonitorController.Foundation.Dict
import MonitorController.Foundation.Words
import MonitorController.Values.Evidence

/-! # Planned panels

The planner gives the primary screen and the next two others a panel each, and
the prover derives from these intents where their windows are to be found. A
plan can be proved as long as it never asks for two panels in the same place.
-/

namespace MonitorController

open Decimals Words

/-- What escapes the planner: its own error, the codec's, or one of decimal arithmetic. -/
inductive PlanningFault where
  | desktopPlanning (message : String)
  | planCodec (message : String)
  | invalidOperation
  deriving DecidableEq, Repr

/-- The facts of the host which the panels depend on. -/
structure DesktopContext where
  isLaptop : Bool
  benqConnected : Bool

/-- The observed screens: outputs are distinct and one of them is primary. -/
structure DesktopDisplaySnapshot where
  screens : List DisplayScreenSnapshot
  outputs_nodup : (screens.map (·.output)).Nodup
  one_primary : (screens.filter (·.primary)).length = 1

/-- What the panels are planned from. -/
structure PanelInputs where
  display : DesktopDisplaySnapshot
  context : DesktopContext
  policyHashes : List ConfigurationContentHash

/-- One repeatable panel property set. -/
structure PanelIntent where
  panel : Nat
  output : String
  position : String
  length : Int
  size : Option Int
  policyHashes : List ConfigurationContentHash

def panelPosition : String := "p=8;x=0;y=0"

def configurationHashes (values : List ConfigurationContentHash) (field : String) :
    Except PlanningFault Unit :=
  if values = [] then .error (.planCodec (field ++ " must not be empty"))
  else if ¬ ValidHashes values then .error (.planCodec (field ++ " must be sorted and unique"))
  else if values.all (fun v => v.sha256.value.toList.take 7 = "sha256:".toList &&
      v.sha256.value.length = 71 && (v.sha256.value.toList.drop 7).all fun c =>
        ('0' ≤ c && c ≤ '9') || ('a' ≤ c && c ≤ 'f')) = false then
    .error (.planCodec (field ++ " must be a canonical SHA-256 digest"))
  else .ok ()

def PanelIntent.make (p : PanelIntent) : Except PlanningFault PanelIntent :=
  if p.panel = 0 ∨ nonempty p.output = false then
    .error (.planCodec "panel intent has an invalid panel or output")
  else if p.length ≤ 0 ∨ ∃ s ∈ p.size, s ≤ 0 then
    .error (.planCodec "panel length and optional size must be positive")
  else if p.position ≠ panelPosition then
    .error (.planCodec "panel position is outside the closed vocabulary")
  else do
    configurationHashes p.policyHashes "panel policy hashes"
    .ok p

section Plan

/-- `Decimal(36) * scale`. -/
def scaledPanel (scale : Decimal) : ℚ := (defaultContext.mul (.ofInt 36) scale).value

/-- `quantize(Decimal(1), rounding=ROUND_HALF_UP)`: a tie goes away from zero. -/
def roundHalfUp (q : ℚ) : Int :=
  if 0 ≤ q then (q + 1 / 2).floor else -(-q + 1 / 2).floor

/-- `_rounded`: a result of more digits than the context holds is refused by the arithmetic. -/
def rounded (value : ℚ) : Except PlanningFault Int :=
  if (roundHalfUp value).natAbs < 10 ^ 28 then .ok (roundHalfUp value)
  else .error .invalidOperation

def primaryScreen (screens : List DisplayScreenSnapshot) :
    Except PlanningFault DisplayScreenSnapshot :=
  match screens.filter (·.primary) with
  | [screen] => .ok screen
  | _ => .error (.desktopPlanning "display snapshot requires exactly one primary screen")

def orderedScreens (screens : List DisplayScreenSnapshot) : List DisplayScreenSnapshot :=
  sortedBy (fun s => toLex (s.x, toLex (s.y, s.output))) screens

/-- The size of a panel, from the rounded size of the primary one. -/
def panelSize (context : DesktopContext) (primarySize : Int) (other : Bool) : Nat → Option Int
  | 1 => if context.isLaptop then
      some (if context.benqConnected then 30 else max 24 (min 40 primarySize)) else none
  | 2 => if context.isLaptop then
      if context.benqConnected then some 45 else if other then some 36 else none else none
  | 3 => if context.isLaptop ∧ context.benqConnected then some 28 else none
  | _ => none

/-- The size of the primary panel is computed where no other rule gives it. -/
def primaryPanelSize (context : DesktopContext) (scale : Decimal) : Except PlanningFault Int :=
  if context.isLaptop ∧ context.benqConnected = false then rounded (scaledPanel scale) else .ok 0

def panelIntents (inputs : PanelInputs) (scale : Decimal) : Except PlanningFault (List PanelIntent) := do
  let ordered := orderedScreens inputs.display.screens
  let primary ← primaryScreen ordered
  let other := (ordered.map (·.output)).filter (· ≠ primary.output)
  let primarySize ← primaryPanelSize inputs.context scale
  [(1, "Primary"), (2, other[0]?.getD "none"), (3, other[1]?.getD "none")].mapM fun p =>
    PanelIntent.make
      { panel := p.1, output := p.2, position := panelPosition, length := 100,
        size := panelSize inputs.context primarySize (other ≠ []) p.1,
        policyHashes := inputs.policyHashes }

end Plan

section Signatures

def panelExpectation (rootHeight : Int) (screen : DisplayScreenSnapshot) (size : Option Int) :
    PanelExpectation :=
  { x := screen.x, width := screen.width, top := screen.y, bottom := screen.y + screen.height,
    rootHeight, height := size.map (· + 1) }

/-- A place no window of which can be told. -/
def PanelExpectation.unprovable (e : PanelExpectation) : Prop :=
  e.x < 0 ∨ e.width ≤ 0 ∨ e.bottom ≤ 0 ∨ e.rootHeight < e.bottom ∨
    ∃ h ∈ e.height, h ≤ 0 ∨ e.bottom - h < e.top

instance (e : PanelExpectation) : Decidable e.unprovable :=
  inferInstanceAs (Decidable (_ ∨ _))

/-- The loop of `derive_expected_panel_signatures` over the panels which are left. -/
def collectExpectations (screens : List DisplayScreenSnapshot) (primary : DisplayScreenSnapshot)
    (rootHeight : Int) : List PanelIntent → List String → Option (List PanelExpectation)
  | [], _ => some []
  | panel :: panels, claimed =>
    if panel.output = "none" then collectExpectations screens primary rootHeight panels claimed
    else if panel.position ≠ panelPosition ∨ panel.length ≠ 100 then none
    else
      match (if panel.output = "Primary" then some primary
        else screens.reverse.find? (·.output = panel.output)) with
      | none => none
      | some screen =>
        if screen.output ∈ claimed then none
        else if (panelExpectation rootHeight screen panel.size).unprovable then none
        else do
          let rest ← collectExpectations screens primary rootHeight panels
            (screen.output :: claimed)
          some (panelExpectation rootHeight screen panel.size :: rest)

def PanelExpectation.key (e : PanelExpectation) : List Int :=
  [e.x, e.width, e.top, e.bottom, e.rootHeight, e.height.getD (-1)]

def deriveExpectedPanelSignatures (panels : List PanelIntent)
    (screens : List DisplayScreenSnapshot) : Option (List PanelExpectation) :=
  match (screens.map fun s => s.y + s.height).max?, screens.filter (·.primary) with
  | some rootHeight, [primary] => do
    let expected ← collectExpectations screens primary rootHeight panels []
    if expected = [] ∨ maxActivePanels < expected.length then none
    else some (sortedBy PanelExpectation.key expected)
  | _, _ => none

end Signatures

section Seats

/-- A screen which is to have a panel, and the planned size of it. -/
structure PanelSeat where
  screen : DisplayScreenSnapshot
  size : Option Int

/-- Two panels which any window fits that fits one of them. -/
def PanelSeat.Alike (a b : PanelSeat) : Prop :=
  a.screen.x = b.screen.x ∧ a.screen.width = b.screen.width ∧
    a.screen.y + a.screen.height = b.screen.y + b.screen.height ∧ a.size = b.size ∧
    (a.size = none → a.screen.y = b.screen.y)

instance (a b : PanelSeat) : Decidable (a.Alike b) := inferInstanceAs (Decidable (_ ∧ _))

/-- The output `none` stands for no panel. -/
def PanelSeat.of? (p : Option DisplayScreenSnapshot × Option Int) : Option PanelSeat :=
  p.1.bind fun s => if s.output = "none" then none else some ⟨s, p.2⟩

variable (inputs : PanelInputs) (scale : Decimal)

def otherScreens : List DisplayScreenSnapshot :=
  (orderedScreens inputs.display.screens).filter (!·.primary)

def panelSeats : List PanelSeat :=
  let other := otherScreens inputs
  let size := panelSize inputs.context (roundHalfUp (scaledPanel scale)) (!other.isEmpty)
  (inputs.display.screens.filter (·.primary)).map (⟨·, size 1⟩) ++
    [(other[0]?, size 2), (other[1]?, size 3)].filterMap PanelSeat.of?

/-- No second or third screen takes the name of the primary panel, and no two panels are alike. -/
def PanelsApart : Prop :=
  (∀ s ∈ (otherScreens inputs).take 2, s.output ≠ "Primary") ∧
    (panelSeats inputs scale).Pairwise fun a b => ¬ a.Alike b

instance : Decidable (PanelsApart inputs scale) := inferInstanceAs (Decidable (_ ∧ _))

end Seats

/-- The window of a live panel process at the bottom of its output, with its strut. -/
structure Docks (pid : Int) (w : PanelWindowEvidence) (e : PanelExpectation) : Prop where
  mapped : w.mapped = true
  wmClass : w.wmClass = some panelClass
  windowType : w.windowType = some [dockType]
  pid : w.pid = some ⟨pid, false⟩
  comm : w.processComm = some panelComm
  fits : matchesExpectation w e = true

/-- There is a snapshot of the planned panels which is judged healthy. -/
def PanelsProvable (panels : List PanelIntent) (screens : List DisplayScreenSnapshot) : Prop :=
  ∃ es windows pid, deriveExpectedPanelSignatures panels screens = some es ∧
    List.Forall₂ (Docks pid) windows es ∧
    (assessPanelSnapshot windows (some es) []).healthy = true

section Intents

variable {inputs : PanelInputs} {scale : Decimal} {panels : List PanelIntent}

theorem PanelIntent.make_eq_ok {p q : PanelIntent} (h : p.make = .ok q) : q = p := by
  unfold PanelIntent.make at h
  split at h
  · cases h
  · split at h
    · cases h
    · split at h
      · cases h
      · obtain ⟨-, -, h⟩ := Outcome.bind_eq_ok.mp h
        exact (Except.ok.inj h).symm

theorem primaryScreen_eq_ok {screens : List DisplayScreenSnapshot} {s : DisplayScreenSnapshot}
    (h : primaryScreen screens = .ok s) : screens.filter (·.primary) = [s] := by
  unfold primaryScreen at h
  split at h
  · rename_i screen hscreen
    rw [hscreen, Except.ok.inj h]
  · cases h

theorem panelSize_congr {context : DesktopContext} {a b : Int}
    (h : context.isLaptop ∧ context.benqConnected = false → a = b) (other : Bool) :
    panelSize context a other = panelSize context b other := by
  funext i
  by_cases hc : context.isLaptop ∧ context.benqConnected = false
  · rw [h hc]
  · rw [not_and, Bool.not_eq_false] at hc
    unfold panelSize
    split
    · by_cases hl : context.isLaptop = true
      · simp [hc hl]
      · simp [hl]
    all_goals rfl

theorem otherOutputs_eq {primary : DisplayScreenSnapshot}
    (h : (orderedScreens inputs.display.screens).filter (·.primary) = [primary]) :
    ((orderedScreens inputs.display.screens).map (·.output)).filter (· ≠ primary.output) =
      (otherScreens inputs).map (·.output) := by
  have hprimary : primary ∈ orderedScreens inputs.display.screens ∧ primary.primary = true :=
    List.mem_filter.mp (h ▸ List.mem_singleton_self primary)
  have hnodup : ((orderedScreens inputs.display.screens).map (·.output)).Nodup :=
    ((sortedBy_perm _).map _).nodup_iff.mpr inputs.display.outputs_nodup
  rw [List.filter_map, otherScreens]
  congr 1
  refine List.filter_congr fun s hs => ?_
  cases hsp : s.primary with
  | true =>
    have heq : s ∈ (orderedScreens inputs.display.screens).filter (·.primary) :=
      List.mem_filter.mpr ⟨hs, hsp⟩
    rw [h, List.mem_singleton] at heq
    simp [heq]
  | false =>
    have hne : s.output ≠ primary.output := by
      intro heq
      have hsame := List.inj_on_of_nodup_map hnodup hs hprimary.1 heq
      rw [hsame, hprimary.2] at hsp
      cases hsp
    simp [hne]

def plannedPanel (inputs : PanelInputs) (panel : Nat) (output : String) (size : Option Int) :
    PanelIntent :=
  { panel, output, position := panelPosition, length := 100, size,
    policyHashes := inputs.policyHashes }

theorem panelIntents_ok (h : panelIntents inputs scale = .ok panels) :
    ∃ primary, inputs.display.screens.filter (·.primary) = [primary] ∧
      let other := otherScreens inputs
      let size := panelSize inputs.context (roundHalfUp (scaledPanel scale)) (!other.isEmpty)
      panels = [plannedPanel inputs 1 "Primary" (size 1),
        plannedPanel inputs 2 ((other[0]?.map (·.output)).getD "none") (size 2),
        plannedPanel inputs 3 ((other[1]?.map (·.output)).getD "none") (size 3)] := by
  unfold panelIntents at h
  obtain ⟨primary, hprimary, h⟩ := Outcome.bind_eq_ok.mp h
  obtain ⟨primarySize, hsize, h⟩ := Outcome.bind_eq_ok.mp h
  have hordered := primaryScreen_eq_ok hprimary
  have hfilter : inputs.display.screens.filter (·.primary) = [primary] :=
    List.perm_singleton.mp (hordered ▸ ((sortedBy_perm _).filter _).symm)
  refine ⟨primary, hfilter, ?_⟩
  have hrounded : inputs.context.isLaptop ∧ inputs.context.benqConnected = false →
      primarySize = roundHalfUp (scaledPanel scale) := by
    intro hcontext
    rw [primaryPanelSize, if_pos hcontext] at hsize
    unfold rounded at hsize
    split at hsize
    · exact (Except.ok.inj hsize).symm
    · cases hsize
  have hother : decide ((otherScreens inputs).map (·.output) ≠ []) =
      !(otherScreens inputs).isEmpty := by
    cases otherScreens inputs <;> rfl
  simp only [otherOutputs_eq hordered, hother, panelSize_congr hrounded, List.mapM_cons,
    List.mapM_nil, Outcome.bind_eq_ok, List.getElem?_map] at h
  obtain ⟨first, hfirst, rest, ⟨second, hsecond, last, ⟨third, hthird, tail, hnil, hlast⟩, hrest⟩,
    h⟩ := h
  obtain rfl := PanelIntent.make_eq_ok hfirst
  obtain rfl := PanelIntent.make_eq_ok hsecond
  obtain rfl := PanelIntent.make_eq_ok hthird
  obtain rfl := Except.ok.inj hnil
  obtain rfl := Except.ok.inj hlast
  obtain rfl := Except.ok.inj hrest
  exact (Except.ok.inj h).symm

end Intents

section Derive

variable {screens : List DisplayScreenSnapshot} {primary : DisplayScreenSnapshot}
  {rootHeight : Int}

def PanelSeat.expectation (rootHeight : Int) (s : PanelSeat) : PanelExpectation :=
  panelExpectation rootHeight s.screen s.size

/-- The intent for a screen which may be missing. -/
structure PlannedFor (panel : PanelIntent) (item : Option DisplayScreenSnapshot × Option Int) :
    Prop where
  output : panel.output = (item.1.map (·.output)).getD "none"
  position : panel.position = panelPosition
  length : panel.length = 100
  size : panel.size = item.2

/-- Whether a screen has the name which stands for the primary one. -/
def namesPrimary (items : List (Option DisplayScreenSnapshot × Option Int)) : Bool :=
  items.any fun item => item.1.any (·.output = "Primary")

/-- Once the primary screen is claimed, a panel on an output of its name finds it claimed. -/
theorem collectExpectations_others (hscreens : (screens.map (·.output)).Nodup)
    {panels : List PanelIntent} {items : List (Option DisplayScreenSnapshot × Option Int)}
    (hpanels : List.Forall₂ PlannedFor panels items) {claimed : List String}
    (hprimary : primary.output ∈ claimed)
    (hitems : ∀ item ∈ items, ∀ s ∈ item.1, s ∈ screens ∧ s.output ∉ claimed ∧
      ¬ (panelExpectation rootHeight s item.2).unprovable)
    (hnodup : ((items.filterMap Prod.fst).map (·.output)).Nodup) :
    collectExpectations screens primary rootHeight panels claimed =
      if namesPrimary items then none
      else some ((items.filterMap PanelSeat.of?).map (·.expectation rootHeight)) := by
  induction hpanels generalizing claimed with
  | nil => rfl
  | @cons panel item panels items hpanel _ ih =>
    obtain ⟨screen?, size⟩ := item
    have hrest := fun i hi => hitems i (List.mem_cons_of_mem _ hi)
    unfold collectExpectations
    cases screen? with
    | none =>
      have hseat : PanelSeat.of? (none, size) = none := rfl
      have houtput : panel.output = "none" := hpanel.output
      rw [if_pos houtput, ih hprimary hrest hnodup, List.filterMap_cons, hseat]
      rfl
    | some s =>
      obtain ⟨hs, hfree, hprovable⟩ := hitems _ List.mem_cons_self s rfl
      have houtput : panel.output = s.output := hpanel.output
      simp only [List.filterMap_cons, List.map_cons, List.nodup_cons] at hnodup
      obtain ⟨hnew, hnodup⟩ := hnodup
      by_cases hnone : s.output = "none"
      · have hseat : PanelSeat.of? (some s, size) = none := by simp [PanelSeat.of?, hnone]
        have hothers : namesPrimary ((some s, size) :: items) = namesPrimary items := by
          simp [namesPrimary, hnone]
        rw [if_pos (houtput.trans hnone), ih hprimary hrest hnodup, List.filterMap_cons, hseat,
          hothers]
      · have hseat : PanelSeat.of? (some s, size) = some ⟨s, size⟩ := by
          simp [PanelSeat.of?, hnone]
        rw [if_neg (houtput ▸ hnone), if_neg (by simp [hpanel.position, hpanel.length]), houtput]
        by_cases hname : s.output = "Primary"
        · rw [if_pos hname]
          simp [namesPrimary, hname, hprimary]
        · have hfound : screens.reverse.find? (·.output = s.output) = some s := by
            refine find?_of_unique (List.mem_reverse.mpr hs) (by simp) fun t ht heq => ?_
            exact List.inj_on_of_nodup_map hscreens (List.mem_reverse.mp ht) hs (by simpa using heq)
          have hlater : ∀ i ∈ items, ∀ t ∈ i.1, t ∈ screens ∧ t.output ∉ s.output :: claimed ∧
              ¬ (panelExpectation rootHeight t i.2).unprovable := by
            intro i hi t ht
            obtain ⟨hmem, hopen, hfits⟩ := hrest i hi t ht
            refine ⟨hmem, ?_, hfits⟩
            rw [List.mem_cons, not_or]
            refine ⟨fun heq => hnew (heq ▸ List.mem_map_of_mem ?_), hopen⟩
            exact List.mem_filterMap.mpr ⟨i, hi, ht⟩
          rw [if_neg hname, hfound, hpanel.size, List.filterMap_cons, hseat]
          simp only [if_neg hfree, if_neg hprovable,
            ih (List.mem_cons_of_mem _ hprimary) hlater hnodup]
          have hothers : namesPrimary ((some s, size) :: items) = namesPrimary items := by
            simp [namesPrimary, hname]
          rw [hothers]
          cases namesPrimary items <;> rfl

/-- A size which leaves room on a screen. -/
def SmallSize (size : Option Int) : Prop := ∀ z, size = some z → 24 ≤ z ∧ z ≤ 45

theorem panelSize_small {context : DesktopContext} {primarySize : Int} {other : Bool} {i : Nat} :
    SmallSize (panelSize context primarySize other i) := by
  intro z h
  unfold panelSize at h
  split at h
  · split_ifs at h <;> cases h <;> omega
  · split_ifs at h <;> cases h <;> omega
  · split_ifs at h
    cases h
    omega
  · cases h

/-- Room for a panel: screens as high and wide as this have no place which cannot be proved. -/
def Roomy (screens : List DisplayScreenSnapshot) : Prop :=
  ∀ s ∈ screens, 0 ≤ s.x ∧ 0 ≤ s.y ∧ 64 ≤ s.width ∧ 64 ≤ s.height

instance (screens : List DisplayScreenSnapshot) : Decidable (Roomy screens) :=
  inferInstanceAs (Decidable (∀ s ∈ screens, _))

theorem not_unprovable (hroomy : Roomy screens) {s : DisplayScreenSnapshot} (hs : s ∈ screens)
    (hroot : s.y + s.height ≤ rootHeight) {size : Option Int}
    (hsize : SmallSize size) :
    ¬ (panelExpectation rootHeight s size).unprovable := by
  obtain ⟨hx, hy, hwidth, hheight⟩ := hroomy s hs
  unfold PanelExpectation.unprovable panelExpectation
  simp only [Option.mem_def, Option.map_eq_some_iff]
  rintro (h | h | h | h | ⟨_, ⟨z, rfl, rfl⟩, h⟩)
  · omega
  · omega
  · omega
  · omega
  · have hz := hsize z rfl
    omega

variable {inputs : PanelInputs} {scale : Decimal} {panels : List PanelIntent}

theorem mem_otherScreens {s : DisplayScreenSnapshot} :
    s ∈ otherScreens inputs ↔ s ∈ inputs.display.screens ∧ s.primary = false := by
  rw [otherScreens, List.mem_filter, orderedScreens, mem_sortedBy]
  simp

def otherItems (inputs : PanelInputs) (scale : Decimal) :
    List (Option DisplayScreenSnapshot × Option Int) :=
  let other := otherScreens inputs
  let size := panelSize inputs.context (roundHalfUp (scaledPanel scale)) (!other.isEmpty)
  [(other[0]?, size 2), (other[1]?, size 3)]

theorem filterMap_otherItems :
    (otherItems inputs scale).filterMap Prod.fst = (otherScreens inputs).take 2 := by
  unfold otherItems
  rcases otherScreens inputs with _ | ⟨a, _ | ⟨b, rest⟩⟩ <;> rfl

theorem mem_otherItems {item : Option DisplayScreenSnapshot × Option Int}
    (hitem : item ∈ otherItems inputs scale) :
    (∀ s ∈ item.1, s ∈ inputs.display.screens ∧ s.primary = false) ∧ SmallSize item.2 := by
  simp only [otherItems, List.mem_cons, List.not_mem_nil, or_false] at hitem
  rcases hitem with rfl | rfl
  all_goals
    refine ⟨fun s hs => mem_otherScreens.mp (List.mem_of_getElem? hs), ?_⟩
    dsimp only
    exact panelSize_small

theorem namesPrimary_otherItems : namesPrimary (otherItems inputs scale) = true ↔
    ¬ ∀ s ∈ (otherScreens inputs).take 2, s.output ≠ "Primary" := by
  unfold otherItems namesPrimary
  rcases otherScreens inputs with _ | ⟨a, _ | ⟨b, rest⟩⟩
  · simp
  · simp
  · simp [imp_iff_not_or]

theorem mem_panelSeats {seat : PanelSeat} (h : seat ∈ panelSeats inputs scale) :
    seat.screen ∈ inputs.display.screens ∧ SmallSize seat.size := by
  rcases List.mem_append.mp h with h | h
  · obtain ⟨s, hs, rfl⟩ := List.mem_map.mp h
    refine ⟨(List.mem_filter.mp hs).1, ?_⟩
    dsimp only
    exact panelSize_small
  · obtain ⟨item, hitem, hseat⟩ := List.mem_filterMap.mp h
    obtain ⟨hscreens, hsizes⟩ := mem_otherItems hitem
    obtain ⟨screen?, size⟩ := item
    obtain ⟨s, hs, hseat⟩ := Option.bind_eq_some_iff.mp hseat
    split at hseat
    · cases hseat
    · obtain rfl := Option.some.inj hseat
      exact ⟨(hscreens s hs).1, hsizes⟩

/-- What is expected of the planned panels, in the order of the seats. -/
theorem derive_planned (hroomy : Roomy inputs.display.screens)
    (h : panelIntents inputs scale = .ok panels) :
    ∃ rootHeight, (∀ s ∈ inputs.display.screens, s.y + s.height ≤ rootHeight) ∧
      deriveExpectedPanelSignatures panels inputs.display.screens =
        if namesPrimary (otherItems inputs scale) then none
        else some (sortedBy PanelExpectation.key
          ((panelSeats inputs scale).map (·.expectation rootHeight))) := by
  obtain ⟨primary, hprimary, hpanels⟩ := panelIntents_ok h
  obtain ⟨hmem, hflag⟩ := List.mem_filter.mp (hprimary ▸ List.mem_singleton_self primary)
  have hbottoms : (inputs.display.screens.map fun s => s.y + s.height) ≠ [] := by
    simpa using List.ne_nil_of_mem hmem
  obtain ⟨rootHeight, hroot⟩ := Option.ne_none_iff_exists'.mp fun hnone =>
    hbottoms (List.max?_eq_none_iff.mp hnone)
  have hbound : ∀ s ∈ inputs.display.screens, s.y + s.height ≤ rootHeight := fun s hs =>
    (List.max?_eq_some_iff.mp hroot).2 _ (List.mem_map_of_mem hs)
  refine ⟨rootHeight, hbound, ?_⟩
  have hnodup : (((otherItems inputs scale).filterMap Prod.fst).map (·.output)).Nodup := by
    rw [filterMap_otherItems]
    refine ((List.take_sublist 2 _).map _).nodup ?_
    refine (List.filter_sublist.map _).nodup ?_
    exact ((sortedBy_perm _).map _).nodup_iff.mpr inputs.display.outputs_nodup
  have hothers : ∀ item ∈ otherItems inputs scale, ∀ s ∈ item.1, s ∈ inputs.display.screens ∧
      s.output ∉ [primary.output] ∧ ¬ (panelExpectation rootHeight s item.2).unprovable := by
    intro item hitem s hs
    obtain ⟨hscreens, hsizes⟩ := mem_otherItems hitem
    obtain ⟨hsmem, hsflag⟩ := hscreens s hs
    refine ⟨hsmem, ?_, not_unprovable hroomy hsmem (hbound s hsmem) hsizes⟩
    rw [List.mem_singleton]
    intro heq
    have hsame := List.inj_on_of_nodup_map inputs.display.outputs_nodup hsmem hmem heq
    rw [hsame, hflag] at hsflag
    cases hsflag
  have hfirst : ¬ (panelExpectation rootHeight primary
      (panelSize inputs.context (roundHalfUp (scaledPanel scale)) (!(otherScreens inputs).isEmpty)
        1)).unprovable :=
    not_unprovable hroomy hmem (hbound primary hmem) panelSize_small
  have hseats : panelSeats inputs scale = ⟨primary, panelSize inputs.context
      (roundHalfUp (scaledPanel scale)) (!(otherScreens inputs).isEmpty) 1⟩ ::
        (otherItems inputs scale).filterMap PanelSeat.of? := by
    unfold panelSeats
    rw [hprimary]
    rfl
  have hlength : ((otherItems inputs scale).filterMap PanelSeat.of?).length ≤ 2 :=
    List.length_filterMap_le _ _
  have hplanned : List.Forall₂ PlannedFor panels.tail (otherItems inputs scale) := by
    rw [hpanels]
    exact .cons ⟨rfl, rfl, rfl, rfl⟩ (.cons ⟨rfl, rfl, rfl, rfl⟩ .nil)
  have hhead : panels = plannedPanel inputs 1 "Primary" (panelSize inputs.context
      (roundHalfUp (scaledPanel scale)) (!(otherScreens inputs).isEmpty) 1) :: panels.tail := by
    rw [hpanels]
    rfl
  have hrest := collectExpectations_others inputs.display.outputs_nodup hplanned
    (List.mem_singleton_self primary.output) hothers hnodup
  unfold deriveExpectedPanelSignatures
  rw [hroot, hprimary, hseats, hhead]
  unfold collectExpectations
  simp only [plannedPanel, ne_eq, not_true_eq_false, or_self, if_false, if_true, List.not_mem_nil,
    if_neg hfirst, hrest]
  cases namesPrimary (otherItems inputs scale) with
  | true => rfl
  | false =>
    refine if_neg (not_or.mpr ⟨List.cons_ne_nil _ _, not_lt.mpr ?_⟩)
    rw [List.length_cons, List.length_map, maxActivePanels]
    omega

end Derive

section Proof

variable {e f : PanelExpectation} {es : List PanelExpectation} {rootHeight : Int}

/-- The relation of seats, of the places which are expected of them. -/
def PanelExpectation.Alike (e f : PanelExpectation) : Prop :=
  e.x = f.x ∧ e.width = f.width ∧ e.bottom = f.bottom ∧ e.height = f.height ∧
    (e.height = none → e.top = f.top)

theorem PanelExpectation.Alike.symm (h : e.Alike f) : f.Alike e :=
  ⟨h.1.symm, h.2.1.symm, h.2.2.1.symm, h.2.2.2.1.symm, fun hnone =>
    (h.2.2.2.2 (h.2.2.2.1.trans hnone)).symm⟩

theorem alike_expectation {a b : PanelSeat} :
    (a.expectation rootHeight).Alike (b.expectation rootHeight) ↔ a.Alike b := by
  have hsize : a.size.map (· + 1) = b.size.map (· + 1) ↔ a.size = b.size :=
    (Option.map_injective (add_left_injective (1 : ℤ))).eq_iff
  simp only [PanelExpectation.Alike, PanelSeat.Alike, PanelSeat.expectation, panelExpectation,
    hsize, Option.map_eq_none_iff]

/-- A place at the bottom of a screen with room for it. -/
structure Placed (rootHeight : Int) (e : PanelExpectation) : Prop where
  x : 0 ≤ e.x
  width : 64 ≤ e.width
  top : 0 ≤ e.top
  room : e.top + 64 ≤ e.bottom
  root : e.bottom ≤ e.rootHeight
  rootHeight : e.rootHeight = rootHeight
  height : ∀ h, e.height = some h → 25 ≤ h ∧ h ≤ 46

def PanelExpectation.filled (e : PanelExpectation) : Int := e.height.getD (e.bottom - e.top)

def windowFor (e : PanelExpectation) : PanelWindowEvidence :=
  { windowId := 1, mapped := true, wmClass := some panelClass, windowType := some [dockType],
    pid := some ⟨1, false⟩, processComm := some panelComm
    geometry := some ⟨⟨e.x, false⟩, ⟨e.bottom - e.filled, false⟩, ⟨e.width, false⟩,
      ⟨e.filled, false⟩⟩
    strut := some ([0, 0, 0, e.rootHeight - (e.bottom - e.filled), 0, 0, 0, 0, 0, 0, e.x,
      e.x + e.width - 1].map (⟨·, false⟩)) }

theorem matches_windowFor : matchesExpectation (windowFor e) f = true ↔
    e.x = f.x ∧ e.width = f.width ∧ e.bottom = f.bottom ∧ e.rootHeight = f.rootHeight ∧
      f.top ≤ e.bottom - e.filled ∧ ∀ h, f.height = some h → e.filled = h := by
  cases hheight : f.height with
  | none =>
    simp [matchesExpectation, windowFor, hheight]
    omega
  | some h =>
    simp [matchesExpectation, windowFor, hheight]
    omega

theorem Placed.filled_bounds (h : Placed rootHeight e) :
    0 < e.filled ∧ e.filled ≤ e.bottom - e.top := by
  have hroom := h.room
  unfold PanelExpectation.filled
  cases hheight : e.height with
  | none =>
    simp only [Option.getD_none]
    omega
  | some z =>
    have hz := h.height z hheight
    simp only [Option.getD_some]
    omega

theorem Placed.matches_self (h : Placed rootHeight e) :
    matchesExpectation (windowFor e) e = true := by
  have hfilled := h.filled_bounds
  refine matches_windowFor.mpr ⟨rfl, rfl, rfl, rfl, by omega, fun z hz => ?_⟩
  simp [PanelExpectation.filled, hz]

/-- Unconstrained places rank below the others, the higher ones further down. -/
def PanelExpectation.rank (e : PanelExpectation) : Int :=
  if e.height = none then e.top - e.bottom else 0

/-- A window which fills a place fits no place of a higher rank, and of the same rank an alike
one. -/
theorem rank_of_matches (he : Placed rootHeight e) (hf : Placed rootHeight f)
    (h : matchesExpectation (windowFor e) f = true) :
    f.rank ≤ e.rank ∧ (f.rank = e.rank → e.Alike f) := by
  obtain ⟨hx, hwidth, hbottom, -, htop, hheight⟩ := matches_windowFor.mp h
  have hroom := he.room
  have hroom' := hf.room
  unfold PanelExpectation.rank PanelExpectation.Alike
  unfold PanelExpectation.filled at htop hheight
  cases hfh : f.height with
  | none =>
    cases heh : e.height with
    | none =>
      rw [heh, Option.getD_none] at htop
      simp only [if_true, true_and, forall_true_left]
      omega
    | some z =>
      simp only [if_true, reduceCtorEq, if_false]
      omega
  | some y =>
    have hy := hf.height y hfh
    have hfill := hheight y hfh
    cases heh : e.height with
    | none =>
      rw [heh, Option.getD_none] at hfill
      omega
    | some z =>
      rw [heh, Option.getD_some] at hfill
      simp [hx, hwidth, hbottom, hfill]

/-- Any window fits alike places alike. -/
theorem matches_alike (he : Placed rootHeight e) (hf : Placed rootHeight f) (h : e.Alike f)
    (w : PanelWindowEvidence) : matchesExpectation w e = matchesExpectation w f := by
  obtain ⟨hx, hwidth, hbottom, hheight, htop⟩ := h
  have hroot : e.rootHeight = f.rootHeight := he.rootHeight.trans hf.rootHeight.symm
  cases hz : e.height with
  | none =>
    have hsame : e = f := by
      cases e
      cases f
      simp_all
    rw [hsame]
  | some z =>
    have hzf : f.height = some z := hheight ▸ hz
    have hlow := he.height z hz
    have hroom := he.room
    have hroom' := hf.room
    unfold matchesExpectation
    split
    · rw [Bool.eq_iff_iff]
      simp only [hx, hwidth, hbottom, hroot, hz, hzf, Option.all_some, Bool.and_eq_true,
        decide_eq_true_eq]
      constructor
      · rintro ⟨⟨⟨⟨⟨h1, h2⟩, -⟩, h3⟩, h4⟩, h5⟩
        exact ⟨⟨⟨⟨⟨h1, h2⟩, by omega⟩, h3⟩, h4⟩, h5⟩
      · rintro ⟨⟨⟨⟨⟨h1, h2⟩, -⟩, h3⟩, h4⟩, h5⟩
        exact ⟨⟨⟨⟨⟨h1, h2⟩, by omega⟩, h3⟩, h4⟩, h5⟩
    · rfl

theorem candidates_windowFor : panelCandidates (es.map windowFor) = es.map windowFor := by
  refine List.filter_eq_self.mpr fun w hw => ?_
  obtain ⟨e, -, rfl⟩ := List.mem_map.mp hw
  simp [windowFor]

theorem docks_windowFor (hes : ∀ e ∈ es, Placed rootHeight e) :
    List.Forall₂ (Docks 1) (es.map windowFor) es := by
  rw [List.forall₂_map_left_iff]
  refine List.forall₂_same.mpr fun e he => ?_
  exact ⟨rfl, rfl, rfl, rfl, rfl, (hes e he).matches_self⟩

/-- The windows which fill places that are nowhere alike prove them. -/
theorem windowFor_proven (hes : ∀ e ∈ es, Placed rootHeight e) (hne : es ≠ [])
    (hfew : es.length ≤ maxActivePanels) (hapart : es.Pairwise fun e f => ¬ e.Alike f) :
    PanelsProven (es.map windowFor) es [] 1 := by
  have hlength : (es.map windowFor).length = es.length := List.length_map _
  have hget : ∀ i, (es.map windowFor).get i = windowFor (es.get (i.cast hlength)) := by simp
  have hplaced : ∀ i, Placed rootHeight (es.get i) := fun i => hes _ (List.get_mem es i)
  constructor
  case count => exact hlength
  case bound => exact hlength ▸ hfew
  case positive => decide
  case fresh => simp
  case common =>
    obtain ⟨e, rest, rfl⟩ := List.exists_cons_of_ne_nil hne
    intro q
    constructor
    · rintro ⟨w, hw, rfl⟩
      obtain ⟨e', -, rfl⟩ := List.mem_map.mp hw
      rfl
    · rintro rfl
      exact ⟨windowFor e, List.mem_map_of_mem List.mem_cons_self, rfl⟩
  case bijection =>
    refine Assignment.existsUnique_of_rank hlength PanelExpectation.rank ?_ ?_ ?_
    · intro i
      rw [hget]
      exact (hplaced _).matches_self
    · intro i j hij
      rw [hget] at hij
      exact (rank_of_matches (hplaced _) (hplaced j) hij).1
    · intro i j hij hrank
      rw [hget] at hij
      have halike := (rank_of_matches (hplaced _) (hplaced j) hij).2 hrank
      have hpairs := List.pairwise_iff_get.mp hapart
      rcases lt_trichotomy j (i.cast hlength) with hlt | heq | hlt
      · exact absurd halike.symm (hpairs _ _ hlt)
      · exact heq
      · exact absurd halike (hpairs _ _ hlt)
  all_goals
    intro w hw
    obtain ⟨e, he, rfl⟩ := List.mem_map.mp hw
    have hplace := hes e he
    have hfilled := hplace.filled_bounds
    have hx := hplace.x
    have hwidth := hplace.width
    have hroot := hplace.root
    have htop := hplace.top
  case dock => rfl
  case live => rfl
  case geometry =>
    simp [validGeometry, windowFor]
    omega
  case strut =>
    simp [validStrut, windowFor]
    omega

theorem apart_of_proven {candidates : List PanelWindowEvidence} {excludedPids : List Int}
    {pid : Int} (hes : ∀ e ∈ es, Placed rootHeight e)
    (h : PanelsProven candidates es excludedPids pid) : es.Pairwise fun e f => ¬ e.Alike f := by
  rw [List.pairwise_iff_get]
  intro i j hlt halike
  refine Assignment.not_existsUnique_of_same hlt.ne (fun w _ => ?_) h.bijection
  exact matches_alike (hes _ (List.get_mem es i)) (hes _ (List.get_mem es j)) halike w

variable {inputs : PanelInputs} {scale : Decimal} {panels : List PanelIntent}

theorem placed_of_seat (hroomy : Roomy inputs.display.screens)
    (hroot : ∀ s ∈ inputs.display.screens, s.y + s.height ≤ rootHeight) {seat : PanelSeat}
    (h : seat ∈ panelSeats inputs scale) : Placed rootHeight (seat.expectation rootHeight) := by
  obtain ⟨hmem, hsize⟩ := mem_panelSeats h
  obtain ⟨hx, hy, hwidth, hheight⟩ := hroomy _ hmem
  refine ⟨hx, hwidth, hy, ?_, hroot _ hmem, rfl, ?_⟩
  · simp only [PanelSeat.expectation, panelExpectation]
    omega
  · intro h hh
    obtain ⟨z, hz, rfl⟩ := Option.map_eq_some_iff.mp hh
    have hbounds := hsize z hz
    omega

theorem panelSeats_length (h : panelIntents inputs scale = .ok panels) :
    panelSeats inputs scale ≠ [] ∧ (panelSeats inputs scale).length ≤ maxActivePanels := by
  obtain ⟨primary, hprimary, -⟩ := panelIntents_ok h
  have hlength : ((otherItems inputs scale).filterMap PanelSeat.of?).length ≤ 2 :=
    List.length_filterMap_le _ _
  unfold panelSeats
  rw [hprimary]
  constructor
  · simp
  · simp only [List.map_cons, List.map_nil, List.singleton_append, List.length_cons]
    exact Nat.succ_le_succ hlength

/-- The expectations for the seats in the order of their derivation. -/
def expectedPanels (inputs : PanelInputs) (scale : Decimal) (rootHeight : Int) : List PanelExpectation :=
  sortedBy PanelExpectation.key ((panelSeats inputs scale).map (·.expectation rootHeight))

theorem expectedPanels_perm : (expectedPanels inputs scale rootHeight).Perm
    ((panelSeats inputs scale).map (·.expectation rootHeight)) := sortedBy_perm _

theorem expectedPanels_length :
    (expectedPanels inputs scale rootHeight).length = (panelSeats inputs scale).length := by
  rw [expectedPanels_perm.length_eq, List.length_map]

theorem expectedPanels_placed (hroomy : Roomy inputs.display.screens)
    (hroot : ∀ s ∈ inputs.display.screens, s.y + s.height ≤ rootHeight) :
    ∀ e ∈ expectedPanels inputs scale rootHeight, Placed rootHeight e := by
  intro e he
  obtain ⟨seat, hseat, rfl⟩ := List.mem_map.mp (mem_sortedBy.mp he)
  exact placed_of_seat hroomy hroot hseat

theorem expectedPanels_apart :
    (expectedPanels inputs scale rootHeight).Pairwise (fun e f => ¬ e.Alike f) ↔
      (panelSeats inputs scale).Pairwise fun a b => ¬ a.Alike b := by
  rw [expectedPanels_perm.pairwise_iff fun hef hfe => hef hfe.symm, List.pairwise_map]
  simp only [alike_expectation]

theorem apart_of_provable (hroomy : Roomy inputs.display.screens)
    (h : panelIntents inputs scale = .ok panels)
    (hprovable : PanelsProvable panels inputs.display.screens) : PanelsApart inputs scale := by
  obtain ⟨rootHeight, hroot, hderive⟩ := derive_planned hroomy h
  obtain ⟨es, windows, pid, hes, -, hhealthy⟩ := hprovable
  rw [hderive] at hes
  split at hes
  · cases hes
  · rename_i hnames
    obtain rfl := Option.some.inj hes
    obtain ⟨pid, hproven⟩ := assess_healthy.mp hhealthy
    constructor
    · by_contra hcon
      exact hnames (namesPrimary_otherItems.mpr hcon)
    · exact expectedPanels_apart.mp (apart_of_proven (expectedPanels_placed hroomy hroot) hproven)

theorem provable_of_apart (hroomy : Roomy inputs.display.screens)
    (h : panelIntents inputs scale = .ok panels) (hapart : PanelsApart inputs scale) :
    PanelsProvable panels inputs.display.screens := by
  obtain ⟨rootHeight, hroot, hderive⟩ := derive_planned hroomy h
  obtain ⟨hne, hfew⟩ := panelSeats_length h
  have hfree : ¬ namesPrimary (otherItems inputs scale) = true := fun hcon =>
    namesPrimary_otherItems.mp hcon hapart.1
  have hplaced : ∀ e ∈ expectedPanels inputs scale rootHeight, Placed rootHeight e :=
    expectedPanels_placed hroomy hroot
  rw [if_neg hfree] at hderive
  refine ⟨_, _, 1, hderive, docks_windowFor hplaced, assess_healthy.mpr ⟨1, ?_⟩⟩
  rw [candidates_windowFor]
  apply windowFor_proven hplaced
  · intro hnil
    have hlength : (expectedPanels inputs scale rootHeight).length =
      (panelSeats inputs scale).length := expectedPanels_length
    rw [hnil] at hlength
    exact hne (List.length_eq_zero_iff.mp hlength.symm)
  · exact expectedPanels_length.trans_le hfew
  · exact expectedPanels_apart.mpr hapart.2

/-- A plan asks for evidence that exists exactly when it asks for no two panels in one place. -/
theorem planned_panels_provable (inputs : PanelInputs) (scale : Decimal) (panels : List PanelIntent)
    (hroomy : Roomy inputs.display.screens) (h : panelIntents inputs scale = .ok panels) :
    PanelsProvable panels inputs.display.screens ↔ PanelsApart inputs scale := by
  constructor
  · exact apart_of_provable hroomy h
  · exact provable_of_apart hroomy h

theorem fullHd_width : (0 : Int) < 1920 := by decide

theorem fullHd_height : (0 : Int) < 1080 := by decide

def fullHd (output : String) (x : Int) (primary : Bool) : DisplayScreenSnapshot :=
  { output, width := 1920, height := 1080, x, y := 0, widthMm := 480, heightMm := 270, primary,
    width_positive := fullHd_width, height_positive := fullHd_height }

def policyHash : ConfigurationContentHash :=
  ⟨⟨"policy", by decide⟩, ⟨"sha256:" ++ String.ofList (List.replicate 64 '0'), by decide +kernel⟩⟩

/-- A desktop with a second screen at some offset from the primary one. -/
def twoScreens (x : Int) : PanelInputs :=
  { display :=
      { screens := [fullHd "DP-1" 0 true, fullHd "DP-2" x false]
        outputs_nodup := by simp [fullHd]
        one_primary := rfl }
    context := { isLaptop := false, benqConnected := false }
    policyHashes := [policyHash] }

theorem orderedScreens_twoScreens {x : Int} (hx : 0 ≤ x) :
    orderedScreens (twoScreens x).display.screens =
      [fullHd "DP-1" 0 true, fullHd "DP-2" x false] := by
  apply sortedBy_eq_self
  have hle : toLex ((0 : Int), toLex ((0 : Int), "DP-1")) ≤ toLex (x, toLex ((0 : Int), "DP-2")) := by
    rcases hx.lt_or_eq with hlt | rfl
    · exact Prod.Lex.toLex_le_toLex.mpr (.inl hlt)
    · decide +kernel
  simpa [twoScreens, fullHd] using hle

theorem panelIntents_twoScreens {x : Int} (hx : 0 ≤ x) :
    panelIntents (twoScreens x) (.ofInt 1) =
      .ok [plannedPanel (twoScreens x) 1 "Primary" none, plannedPanel (twoScreens x) 2 "DP-2" none,
        plannedPanel (twoScreens x) 3 "none" none] := by
  have hhashes : configurationHashes [policyHash] "panel policy hashes" = .ok () := by
    decide +kernel
  have hmake : ∀ n output, n ≠ 0 → nonempty output = true →
      (plannedPanel (twoScreens x) n output none).make =
        .ok (plannedPanel (twoScreens x) n output none) := by
    intro n output hn houtput
    simp [PanelIntent.make, plannedPanel, twoScreens, hn, houtput, hhashes]
  have hdesktop : (twoScreens x).context = ⟨false, false⟩ := rfl
  have hfirst := hmake 1 "Primary" (by decide) (by decide)
  have hsecond := hmake 2 "DP-2" (by decide) (by decide)
  have hthird := hmake 3 "none" (by decide) (by decide)
  unfold panelIntents
  rw [orderedScreens_twoScreens hx]
  unfold plannedPanel at hfirst hsecond hthird ⊢
  simp [primaryScreen, fullHd, primaryPanelSize, panelSize, hdesktop, hfirst, hsecond, hthird]

theorem roomy_twoScreens {x : Int} (hx : 0 ≤ x) : Roomy (twoScreens x).display.screens := by
  simp [Roomy, twoScreens, fullHd, hx]

/-- The panels of two screens in a row can be proved. -/
theorem planned_panels_provable_row :
    ∃ panels, panelIntents (twoScreens 1920) (.ofInt 1) = .ok panels ∧
      (PanelsProvable panels (twoScreens 1920).display.screens ↔ PanelsApart (twoScreens 1920) (.ofInt 1)) :=
  ⟨_, panelIntents_twoScreens (by decide), planned_panels_provable _ _ _
    (roomy_twoScreens (by decide)) (panelIntents_twoScreens (by decide))⟩

/-- Mirrored outputs are planned a panel each, which no snapshot can prove. -/
theorem mirrored_panels_unprovable :
    ∃ panels, Roomy (twoScreens 0).display.screens ∧
      panelIntents (twoScreens 0) (.ofInt 1) = .ok panels ∧
      ¬ PanelsProvable panels (twoScreens 0).display.screens := by
  have hplanned := panelIntents_twoScreens (le_refl 0)
  refine ⟨_, roomy_twoScreens le_rfl, hplanned, fun hprovable => ?_⟩
  obtain ⟨-, hseats⟩ := apart_of_provable (roomy_twoScreens le_rfl) hplanned hprovable
  have hothers : otherScreens (twoScreens 0) = [fullHd "DP-2" 0 false] := by
    rw [otherScreens, orderedScreens_twoScreens le_rfl]
    rfl
  simp only [panelSeats, hothers] at hseats
  simp [twoScreens, fullHd, panelSize, PanelSeat.of?, PanelSeat.Alike] at hseats

end Proof

end MonitorController
