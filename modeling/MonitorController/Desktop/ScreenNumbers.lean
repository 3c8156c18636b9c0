import Mathlib.Data.List.Chain
import MonitorController.Desktop.WindowPlacement

/-! # Screen numbers

The scripts sort the screens of xrandr by their left edge and number them, and
look up the screen at a point. A layout sorts and numbers the same screens once
more, and Fluxbox finds the head at a point by itself.
-/

namespace MonitorController

open Integers Words

section Cache

/-- The groups of a line of xrandr for a connected output, its numbers read. -/
structure ConnectedOutput where
  name : String
  primary : Bool
  width : Nat
  height : Nat
  x_offset : Nat
  y_offset : Nat
  x_mm : Nat
  y_mm : Nat

/-- A name which starts with a digit is cached as a number. -/
inductive CachedName where
  | number (n : Int)
  | text (s : String)
  deriving DecidableEq

structure CachedScreen where
  name : CachedName
  primary : Bool
  width : Nat
  height : Nat
  x_offset : Nat
  y_offset : Nat
  x_mm : Nat
  y_mm : Nat
  num : Nat
  deriving DecidableEq

def CachedScreen.right (screen : CachedScreen) : Nat := screen.x_offset + screen.width

/-- What ends a script. -/
inductive DisplayFault where
  | exit
  | valueError
  | runtime (message : String)
  | layout (fault : LayoutFault)

/-- A value of a line: `int(v)` if it starts with a digit. -/
def cachedName (name : String) : Except DisplayFault CachedName :=
  if (name.toList.head?.any isDecimal) = true then
    match readDecimal name.toList with
    | some n => .ok (.number n)
    | none => .error .valueError
  else .ok (.text name)

def cachedScreen (screen : ConnectedOutput) (num : Nat) : Except DisplayFault CachedScreen := do
  let name ← cachedName screen.name
  .ok { name, num, primary := screen.primary, width := screen.width, height := screen.height,
        x_offset := screen.x_offset, y_offset := screen.y_offset, x_mm := screen.x_mm,
        y_mm := screen.y_mm }

def numberScreens : Nat → List ConnectedOutput → Except DisplayFault (List CachedScreen)
  | _, [] => .ok []
  | num, screen :: screens => do
    let cached ← cachedScreen screen num
    let rest ← numberScreens (num + 1) screens
    .ok (cached :: rest)

/-- `XrandrJsonCache.builder`, from the screens in the order of xrandr. -/
def xrandrScreens (listed : List ConnectedOutput) : Except DisplayFault (List CachedScreen) :=
  if listed = [] then .error .exit else numberScreens 0 (sortedBy (·.x_offset) listed)

/-- `get_screen`: the first screen which the point is not left or right of. -/
def getScreen (screens : List CachedScreen) (x : Int) : Except DisplayFault CachedScreen :=
  match screens.find? fun s => s.x_offset ≤ x ∧ x ≤ s.right with
  | some screen => .ok screen
  | none => .error (.runtime ("Failed to find xrandr screen for x=" ++ toString x))

end Cache

section Adapter

/-- `str(screen.get("name") or "unknown")`. -/
def CachedName.output : CachedName → String
  | .number n => if n = 0 then "unknown" else toString n
  | .text s => if s = "" then "unknown" else s

/-- `_OUTPUT_NAME`. -/
def isOutputName (output : String) : Bool :=
  output ≠ "" && output.toList.all fun c => !isSpace c && 0x20 ≤ c.toNat && c.toNat ≠ 0x7f

/-- The snapshot of one screen, with the checks of its constructor. -/
def displayScreen (screen : CachedScreen) : Except LayoutFault DisplayScreenSnapshot :=
  if isOutputName screen.name.output = false then
    .error (.layoutPlanning "display output name is malformed")
  else if h : 0 < (screen.width : Int) ∧ 0 < (screen.height : Int) then
    .ok { output := screen.name.output, width := screen.width, height := screen.height
          x := screen.x_offset, y := screen.y_offset, widthMm := screen.x_mm
          heightMm := screen.y_mm, primary := screen.primary, width_positive := h.1
          height_positive := h.2 }
  else .error (.layoutPlanning "display screen dimensions must be positive")

def displayScreens (screens : List CachedScreen) :
    Except LayoutFault (List DisplayScreenSnapshot) := screens.mapM displayScreen

/-- The layout for the cached screens, as `get_layout_params` resolves it. -/
def layoutScreens (quoted : String → String) (parsed : ParsedLayout LayoutGrammar)
    (screens : List CachedScreen) : Except LayoutFault (List ResolvedScreen) := do
  let display ← displayScreens screens
  let resolved ← resolveLayout quoted parsed display
  .ok resolved.screens

inductive Direction where
  | left | right

def Direction.value : Direction → String
  | .left => "left"
  | .right => "right"

def neighbour (screen : ResolvedScreen) (direction : Direction) : Option String :=
  (screen.sourceParameters.find? (·.1 = direction.value)).map (·.2)

/-- `get_adjacent_screen`: the screen at a point is asked for its neighbour by its number. -/
def getAdjacentScreen (quoted : String → String) (parsed : ParsedLayout LayoutGrammar)
    (screens : List CachedScreen) (direction : Direction) (x : Int) :
    Except DisplayFault (Option ResolvedScreen) := do
  let current ← getScreen screens x
  let resolved ← (layoutScreens quoted parsed screens).mapError .layout
  .ok ((resolved[current.num]?).bind fun screen =>
    (neighbour screen direction).bind fun name =>
      resolved.find? fun s => name = s.name ∨ name = s.assignment)

end Adapter

section Numbers

variable {listed : List ConnectedOutput} {screens : List CachedScreen}
  {display : List DisplayScreenSnapshot} {quoted : String → String}
  {parsed : ParsedLayout LayoutGrammar} {resolved : List ResolvedScreen}

def ConnectedOutput.output (screen : ConnectedOutput) : String :=
  match cachedName screen.name with
  | .ok name => name.output
  | .error _ => screen.name

def ConnectedOutput.place (screen : ConnectedOutput) : Int × Int × String :=
  (screen.x_offset, screen.y_offset, screen.output)

def CachedScreen.place (screen : CachedScreen) : Int × Int × String :=
  (screen.x_offset, screen.y_offset, screen.name.output)

theorem numberScreens_places {num : Nat} (h : numberScreens num listed = .ok screens) :
    screens.map (·.place) = listed.map (·.place) ∧
      screens.map (·.num) = List.range' num screens.length := by
  induction listed generalizing num screens with
  | nil =>
    obtain rfl := Except.ok.inj h
    exact ⟨rfl, rfl⟩
  | cons screen listed ih =>
    obtain ⟨cached, hcached, h⟩ := Outcome.bind_eq_ok.mp h
    obtain ⟨rest, hrest, h⟩ := Outcome.bind_eq_ok.mp h
    obtain rfl := Except.ok.inj h
    obtain ⟨hplaces, hnums⟩ := ih hrest
    obtain ⟨name, hname, hcached⟩ := Outcome.bind_eq_ok.mp hcached
    obtain rfl := Except.ok.inj hcached
    rw [List.map_cons, List.map_cons, List.map_cons, hplaces, hnums, List.length_cons,
      List.range'_succ]
    refine ⟨?_, rfl⟩
    have hplace : screen.place = ((screen.x_offset : Int), (screen.y_offset : Int), name.output) := by
      rw [ConnectedOutput.place, ConnectedOutput.output, hname]
    rw [hplace]
    rfl

theorem displayScreens_places (h : displayScreens screens = .ok display) :
    display.map (fun d => (d.x, d.y, d.output)) = screens.map (·.place) := by
  unfold displayScreens at h
  induction screens generalizing display with
  | nil =>
    obtain rfl := Except.ok.inj h
    rfl
  | cons screen screens ih =>
    rw [List.mapM_cons] at h
    obtain ⟨first, hfirst, h⟩ := Outcome.bind_eq_ok.mp h
    obtain ⟨rest, hrest, h⟩ := Outcome.bind_eq_ok.mp h
    obtain rfl := Except.ok.inj h
    rw [List.map_cons, List.map_cons, ih hrest]
    unfold displayScreen at hfirst
    split at hfirst
    · cases hfirst
    · split at hfirst
      · obtain rfl := Except.ok.inj hfirst
        rfl
      · cases hfirst

theorem resolveScreen_output {layout : LayoutScreen} {live : DisplayScreenSnapshot} {number : Nat}
    {assignment : String} {screen : ResolvedScreen}
    (h : resolveScreen defaultContext layout live number assignment = .ok screen) :
    screen.output = live.output := by
  unfold resolveScreen at h
  iterate 13 obtain ⟨_, -, h⟩ := Outcome.bind_eq_ok.mp h
  split at h
  · cases h
  · exact congrArg ResolvedScreen.output (Except.ok.inj h).symm

theorem mapError_eq_ok {ε ε' α : Type} {f : ε → ε'} {x : Except ε α} {a : α} :
    x.mapError f = .ok a ↔ x = .ok a := by
  cases x <;> simp [Except.mapError]

theorem resolveScreens_outputs {single : Bool} {number : Nat} {assignments : List String}
    {heads : List Nat} {pairs : List (LayoutScreen × DisplayScreenSnapshot)}
    (h : resolveScreens quoted single number assignments heads pairs = .ok resolved) :
    resolved.map (·.output) = pairs.map (·.2.output) := by
  induction pairs generalizing number assignments heads resolved with
  | nil =>
    obtain rfl := Except.ok.inj h
    rfl
  | cons pair pairs ih =>
    obtain ⟨screen, live⟩ := pair
    unfold resolveScreens at h
    dsimp only at h
    split at h
    · cases h
    split at h
    · cases h
    split at h
    · cases h
    obtain ⟨first, hfirst, h⟩ := Outcome.bind_eq_ok.mp h
    obtain ⟨rest, hrest, h⟩ := Outcome.bind_eq_ok.mp h
    obtain rfl := Except.ok.inj h
    rw [List.map_cons, List.map_cons, ih hrest, resolveScreen_output (mapError_eq_ok.mp hfirst)]

/-- The screens of a layout are those of the display in its own order. -/
theorem resolveLayout_outputs {layout : ResolvedLayout}
    (h : resolveLayout quoted parsed display = .ok layout) :
    layout.screens.map (·.output) = (displayOrder display).map (·.output) ∧
      (display.map (·.output)).Nodup := by
  unfold resolveLayout at h
  dsimp only at h
  split at h
  · cases h
  rename_i hlength
  split at h
  · cases h
  split at h
  · cases h
  rename_i hnodup
  split at h
  · cases h
  obtain ⟨screens, hscreens, h⟩ := Outcome.bind_eq_ok.mp h
  obtain ⟨actions, -, h⟩ := Outcome.bind_eq_ok.mp h
  obtain rfl := Except.ok.inj h
  constructor
  · rw [resolveScreens_outputs hscreens]
    have hsnd : (parsed.grammar.screens.zip (displayOrder display)).map (·.2) =
        displayOrder display := by
      rw [not_not] at hlength
      exact List.map_snd_zip (by omega)
    conv_rhs => rw [← hsnd]
    rw [List.map_map]
    rfl
  · have hperm := (sortedBy_perm (f := fun s : DisplayScreenSnapshot =>
      toLex (s.x, toLex (s.y, s.output))) display).map (·.output)
    exact hperm.nodup_iff.mp (not_not.mp hnodup)

theorem eq_of_map_eq {α β : Type} {f : α → β} {l m : List α} (hperm : l.Perm m)
    (hnodup : (m.map f).Nodup) (h : l.map f = m.map f) : l = m := by
  have hlength := hperm.length_eq
  refine List.ext_getElem hlength fun i hi hi' => ?_
  have hvalue : f l[i] = f m[i] := by
    have hget := congrArg (·[i]?) h
    simpa [List.getElem?_eq_getElem hi, List.getElem?_eq_getElem hi'] using hget
  exact List.inj_on_of_nodup_map hnodup (hperm.subset (List.getElem_mem hi))
    (List.getElem_mem hi') hvalue

/-- In each column of the screen the outputs are listed from top to bottom, and by name. -/
def ListedInOrder (listed : List ConnectedOutput) : Prop :=
  listed.Pairwise fun a b => a.x_offset = b.x_offset →
    toLex (a.y_offset, a.output) ≤ toLex (b.y_offset, b.output)

def placeKey (place : Int × Int × String) : Int ×ₗ Int ×ₗ String :=
  toLex (place.1, toLex (place.2.1, place.2.2))

theorem placeKey_le {a b : ConnectedOutput} : placeKey a.place ≤ placeKey b.place ↔
    a.x_offset < b.x_offset ∨ a.x_offset = b.x_offset ∧
      toLex (a.y_offset, a.output) ≤ toLex (b.y_offset, b.output) := by
  simp only [placeKey, ConnectedOutput.place, Prod.Lex.toLex_le_toLex, Int.ofNat_lt, Int.ofNat_inj]

theorem pairwise_placeKey : (sortedBy (·.x_offset) listed).Pairwise
    (fun a b => placeKey a.place ≤ placeKey b.place) ↔ ListedInOrder listed := by
  have hstable := @pairwise_sortedBy _ _ _ (fun a : ConnectedOutput => a.x_offset)
    (fun a b => a.x_offset = b.x_offset →
      toLex (a.y_offset, a.output) ≤ toLex (b.y_offset, b.output))
    (fun a b hne heq => absurd heq hne) listed
  unfold ListedInOrder
  rw [← hstable]
  have hsorted := sortedBy_sorted (f := fun a : ConnectedOutput => a.x_offset) listed
  constructor
  · intro h
    refine h.imp fun {a b} hle heq => ?_
    obtain hlt | ⟨-, hle⟩ := placeKey_le.mp hle
    · omega
    · exact hle
  · intro h
    refine (hsorted.and h).imp fun {a b} hboth => placeKey_le.mpr ?_
    obtain hlt | heq := hboth.1.lt_or_eq
    · exact .inl hlt
    · exact .inr ⟨heq, hboth.2 heq⟩

/-- Every cached screen has the number under which the layout knows its output. -/
def NumbersAgree (screens : List CachedScreen) (resolved : List ResolvedScreen) : Prop :=
  ∀ s ∈ screens, ∃ r, resolved[s.num]? = some r ∧ r.output = s.name.output

theorem numbersAgree_iff (hnums : screens.map (·.num) = List.range' 0 screens.length)
    (hlength : resolved.length = screens.length) :
    NumbersAgree screens resolved ↔
      resolved.map (·.output) = screens.map (·.name.output) := by
  have hnum : ∀ i (hi : i < screens.length), screens[i].num = i := by
    intro i hi
    have hget := congrArg (·[i]?) hnums
    simpa [List.getElem?_eq_getElem hi, List.getElem?_range', hi] using hget
  constructor
  · intro h
    refine List.ext_getElem (by simpa using hlength) fun i hi hi' => ?_
    rw [List.length_map] at hi hi'
    obtain ⟨r, hr, houtput⟩ := h screens[i] (List.getElem_mem hi')
    rw [hnum i hi', List.getElem?_eq_getElem hi] at hr
    rw [List.getElem_map, List.getElem_map, Option.some.inj hr, houtput]
  · intro h s hs
    obtain ⟨i, hi, rfl⟩ := List.getElem_of_mem hs
    have hget := congrArg (·[i]?) h
    rw [hnum i hi, List.getElem?_eq_getElem (hlength ▸ hi)]
    refine ⟨_, rfl, ?_⟩
    simpa [List.getElem?_eq_getElem hi, List.getElem?_eq_getElem (hlength ▸ hi)] using hget

/-- The numbers of the scripts are those of the layout exactly if the outputs of each column are
listed from top to bottom and by name; then a screen at a point is asked for its own neighbour. -/
theorem screenNumbers_agree_iff (hscreens : xrandrScreens listed = .ok screens)
    (hresolved : layoutScreens quoted parsed screens = .ok resolved) :
    (NumbersAgree screens resolved ↔ ListedInOrder listed) ∧
    (NumbersAgree screens resolved → ∀ direction x current, getScreen screens x = .ok current →
      ∃ r ∈ resolved, r.output = current.name.output ∧
        getAdjacentScreen quoted parsed screens direction x =
          .ok ((neighbour r direction).bind fun name =>
            resolved.find? fun s => name = s.name ∨ name = s.assignment)) := by
  constructor
  · unfold xrandrScreens at hscreens
    split at hscreens
    · cases hscreens
    obtain ⟨hplaces, hnums⟩ := numberScreens_places hscreens
    obtain ⟨display, hdisplay, h⟩ := Outcome.bind_eq_ok.mp hresolved
    obtain ⟨layout, hlayout, h⟩ := Outcome.bind_eq_ok.mp h
    obtain rfl := Except.ok.inj h
    obtain ⟨houtputs, hnodup⟩ := resolveLayout_outputs hlayout
    have hdisplayed := displayScreens_places hdisplay
    have hnames : display.map (·.output) = screens.map (·.name.output) := by
      have hthird := congrArg (List.map (·.2.2)) hdisplayed
      rwa [List.map_map, List.map_map] at hthird
    have hlength : layout.screens.length = screens.length := by
      have hlayoutLength := congrArg List.length houtputs
      have hnamesLength := congrArg List.length hnames
      have hordered := (sortedBy_perm (f := fun s : DisplayScreenSnapshot =>
        toLex (s.x, toLex (s.y, s.output))) display).length_eq
      simp only [List.length_map] at hlayoutLength hnamesLength
      rw [hlayoutLength, ← hnamesLength]
      exact hordered
    rw [numbersAgree_iff hnums hlength, houtputs, ← hnames, ← pairwise_placeKey]
    have hpairs : (sortedBy (·.x_offset) listed).Pairwise
        (fun a b => placeKey a.place ≤ placeKey b.place) ↔
        display.Pairwise fun a b => toLex (a.x, toLex (a.y, a.output)) ≤
          toLex (b.x, toLex (b.y, b.output)) := by
      have hmap := (hdisplayed.trans hplaces).symm
      have hleft := List.pairwise_map (R := fun a b => placeKey a ≤ placeKey b)
        (f := fun a : ConnectedOutput => a.place) (l := sortedBy (·.x_offset) listed)
      rw [← hleft, hmap, List.pairwise_map]
      rfl
    rw [hpairs]
    constructor
    · intro h
      have hsame := eq_of_map_eq (sortedBy_perm display) hnodup h
      rw [← hsame]
      exact sortedBy_sorted display
    · intro h
      rw [displayOrder, sortedBy_eq_self h]
  · intro hagree direction x current hcurrent
    have hmem : current ∈ screens := by
      unfold getScreen at hcurrent
      split at hcurrent
      · rename_i hfound
        obtain rfl := Except.ok.inj hcurrent
        exact List.mem_of_find?_eq_some hfound
      · cases hcurrent
    obtain ⟨r, hr, houtput⟩ := hagree current hmem
    refine ⟨r, List.mem_of_getElem? hr, houtput, ?_⟩
    unfold getAdjacentScreen
    rw [hcurrent, hresolved]
    change Except.ok ((resolved[current.num]?).bind _) = _
    rw [hr, Option.bind_some]

def extendedOutputs : List ConnectedOutput :=
  [⟨"eDP-1", true, 1920, 1080, 0, 0, 310, 170⟩, ⟨"HDMI-1", false, 1920, 1080, 1920, 0, 0, 0⟩]

def mirroredOutputs : List ConnectedOutput :=
  [⟨"eDP-1", true, 1920, 1080, 0, 0, 310, 170⟩, ⟨"HDMI-1", false, 1920, 1080, 0, 0, 0, 0⟩]

def externalLayoutScreen : LayoutScreen :=
  ⟨"external", none, 2, [("head", "2"), ("name", "external")], by decide, by decide⟩

def primaryLayoutScreen : LayoutScreen :=
  ⟨"laptop", some "primary", 1,
    [("assignment", "primary"), ("head", "1"), ("left", "external"), ("name", "laptop")],
    by decide, Nat.one_pos⟩

def bareLayout (screens : List LayoutScreen) : ParsedLayout LayoutGrammar where
  layout := "bare"
  sourcePath := ".fluxbox/layouts/bare.yaml"
  consumedPaths := [".fluxbox/layouts/bare.yaml"]
  expandedYaml := []
  grammar := ⟨none, none, none, screens, []⟩

theorem screenNumbers_agree_extended : ∃ screens resolved,
    xrandrScreens extendedOutputs = .ok screens ∧
    layoutScreens id (bareLayout [primaryLayoutScreen, externalLayoutScreen]) screens =
      .ok resolved ∧ NumbersAgree screens resolved := by
  have hlisted : (xrandrScreens extendedOutputs).toOption.map (·.length) = some 2 := by
    decide +kernel
  obtain ⟨screens, hscreens, -⟩ := Outcome.eq_ok_of_toOption hlisted
  have hresolves : ((xrandrScreens extendedOutputs).toOption.bind fun screens =>
      (layoutScreens id (bareLayout [primaryLayoutScreen, externalLayoutScreen])
        screens).toOption.map (·.length)) = some 2 := by
    decide +kernel
  rw [hscreens] at hresolves
  obtain ⟨resolved, hresolved, -⟩ := Outcome.eq_ok_of_toOption hresolves
  refine ⟨screens, resolved, hscreens, hresolved,
    (screenNumbers_agree_iff hscreens hresolved).1.mpr ?_⟩
  unfold ListedInOrder extendedOutputs
  simp

/-- Mirrored outputs are numbered as they are listed by the scripts, and by name by the layout: the
laptop is asked for its neighbour and answers for the projector. -/
theorem screenNumbers_differ_mirrored : ∃ screens resolved,
    xrandrScreens mirroredOutputs = .ok screens ∧
    layoutScreens id (bareLayout [externalLayoutScreen, primaryLayoutScreen]) screens =
      .ok resolved ∧
    ¬ NumbersAgree screens resolved ∧
    (getScreen screens 100).toOption.map (·.name) = some (.text "eDP-1") ∧
    (resolved.map fun r => (r.output, neighbour r .left)) =
      [("HDMI-1", none), ("eDP-1", some "external")] ∧
    getAdjacentScreen id (bareLayout [externalLayoutScreen, primaryLayoutScreen]) screens .left 100 =
      .ok none := by
  have hlisted : (xrandrScreens mirroredOutputs).toOption.map id =
      some [⟨.text "eDP-1", true, 1920, 1080, 0, 0, 310, 170, 0⟩,
        ⟨.text "HDMI-1", false, 1920, 1080, 0, 0, 0, 0, 1⟩] := by
    decide +kernel
  obtain ⟨screens, hscreens, hvalue⟩ := Outcome.eq_ok_of_toOption hlisted
  obtain rfl := hvalue
  have hresolves : (layoutScreens id (bareLayout [externalLayoutScreen, primaryLayoutScreen])
      [⟨.text "eDP-1", true, 1920, 1080, 0, 0, 310, 170, 0⟩,
        ⟨.text "HDMI-1", false, 1920, 1080, 0, 0, 0, 0, 1⟩]).toOption.map
          (·.map fun r => (r.output, neighbour r .left)) =
      some [("HDMI-1", none), ("eDP-1", some "external")] := by
    decide +kernel
  obtain ⟨resolved, hresolved, hnames⟩ := Outcome.eq_ok_of_toOption hresolves
  refine ⟨_, resolved, hscreens, hresolved, ?_, by decide +kernel, hnames, ?_⟩
  · intro hagree
    obtain ⟨r, hr, houtput⟩ := hagree _ List.mem_cons_self
    have hfirst := congrArg (·[0]?) hnames
    rw [List.getElem?_map] at hfirst
    dsimp only at hr
    rw [hr] at hfirst
    have hname : r.output = "HDMI-1" := congrArg Prod.fst (Option.some.inj hfirst)
    rw [hname] at houtput
    revert houtput
    decide
  · unfold getAdjacentScreen
    rw [hresolved]
    obtain ⟨r, hr, hneighbour⟩ : ∃ r, resolved[0]? = some r ∧ neighbour r .left = none := by
      have hfirst := congrArg (·[0]?) hnames
      rw [List.getElem?_map] at hfirst
      obtain ⟨r, hr, hpair⟩ := Option.map_eq_some_iff.mp hfirst
      exact ⟨r, hr, congrArg Prod.snd hpair⟩
    change Except.ok ((resolved[0]?).bind _) = _
    rw [hr, Option.bind_some, hneighbour]
    rfl

end Numbers

section Points

variable {screens : List CachedScreen} {s t : CachedScreen} {x y : Int} {heads : List Head}

/-- The screens stand side by side, each beginning where the one on its left ends. -/
structure Tiles (screens : List CachedScreen) : Prop where
  positive : ∀ s ∈ screens, 0 < s.width
  joined : screens.IsChain fun a b => b.x_offset = a.right

/-- The point lies over the screen, whose right edge belongs to its neighbour. -/
def CachedScreen.Spans (s : CachedScreen) (x : Int) : Prop := s.x_offset ≤ x ∧ x < s.right

def CachedScreen.head (s : CachedScreen) : Head := ⟨s.x_offset, s.y_offset, s.width, s.height⟩

theorem Tiles.ordered (h : Tiles screens) :
    screens.Pairwise fun a b => a.right ≤ b.x_offset ∧ 0 < a.width ∧ 0 < b.width := by
  have hjoined := h.joined
  have hpositive := h.positive
  clear h
  induction screens with
  | nil => exact .nil
  | cons a screens ih =>
    cases screens with
    | nil => exact List.pairwise_singleton _ _
    | cons b screens =>
      rw [List.isChain_cons_cons] at hjoined
      obtain ⟨ha, hrest⟩ := List.forall_mem_cons.mp hpositive
      have htail := ih hjoined.2 hrest
      refine List.pairwise_cons.mpr ⟨fun c hc => ?_, htail⟩
      obtain rfl | hc := List.mem_cons.mp hc
      · exact ⟨hjoined.1.ge, ha, hrest c List.mem_cons_self⟩
      · obtain ⟨hright, hb, hwidth⟩ := List.rel_of_pairwise_cons htail hc
        refine ⟨?_, ha, hwidth⟩
        have hstart := hjoined.1
        unfold CachedScreen.right at *
        omega

theorem Tiles.unique (h : Tiles screens) (hs : s ∈ screens) (ht : t ∈ screens) (hx : s.Spans x)
    (hx' : t.Spans x) : s = t := by
  have hpairs : screens.Pairwise fun a b => a.Spans x → b.Spans x → a = b := by
    refine h.ordered.imp fun {a b} hab ha hb => ?_
    have hleft := ha.2
    have hright := hb.1
    omega
  have hsymm := hpairs.forall_of_forall_of_flip (fun a _ _ _ => rfl)
    (hpairs.imp fun {a b} hab hb ha => (hab ha hb).symm)
  exact hsymm hs ht hx hx'

/-- The head at a point is the screen over which the point lies. -/
theorem headOf_pixel (h : Tiles screens) (hheads : heads.Perm (screens.map (·.head)))
    (hs : s ∈ screens) (hx : s.Spans x) (hy : s.y_offset ≤ y ∧ y < s.y_offset + s.height) :
    ∃ n, headOf ⟨x, y, 1, 1⟩ heads = some n ∧ heads[n - 1]? = some s.head := by
  have hcenter : ∀ z : Int, z + 1 / 2 = z := by
    intro z
    omega
  have hmem : s.head ∈ heads := hheads.mem_iff.mpr (List.mem_map.mpr ⟨s, hs, rfl⟩)
  have hholds : s.head.Holds x y := by
    have hright := hx.2
    unfold CachedScreen.right at hright
    exact ⟨hx.1, by simp only [CachedScreen.head]; omega, hy.1, hy.2⟩
  have hsome : (heads.findIdx? fun h => decide (h.Holds x y)).isSome := by
    rw [List.findIdx?_isSome, List.any_eq_true]
    exact ⟨_, hmem, decide_eq_true hholds⟩
  obtain ⟨i, hi⟩ := Option.isSome_iff_exists.mp hsome
  obtain ⟨hlt, hfound, -⟩ := List.findIdx?_eq_some_iff_getElem.mp hi
  refine ⟨i + 1, ?_, ?_⟩
  · unfold headOf
    dsimp only
    rw [hcenter, hcenter, hi]
    rfl
  · obtain ⟨t, ht, hhead⟩ := List.mem_map.mp (hheads.mem_iff.mp (List.getElem_mem hlt))
    have hover : t.Spans x := by
      have hin := of_decide_eq_true hfound
      rw [← hhead] at hin
      have hright := hin.2.1
      simp only [CachedScreen.head] at hright
      refine ⟨hin.1, ?_⟩
      unfold CachedScreen.right
      omega
    rw [Nat.add_sub_cancel, List.getElem?_eq_getElem hlt, ← hhead, h.unique ht hs hover hx]

theorem Tiles.neighbour (h : Tiles screens) {before after : List CachedScreen}
    (hsplit : screens = before ++ s :: after) (hne : before ≠ []) :
    ∃ t ∈ before, t.right = s.x_offset := by
  obtain ⟨before, t, rfl⟩ := List.eq_nil_or_concat before |>.resolve_left hne
  have hjoined := h.joined
  rw [hsplit, List.concat_eq_append, List.append_assoc] at hjoined
  have hpair := hjoined.right_of_append
  rw [List.singleton_append, List.isChain_cons_cons] at hpair
  exact ⟨t, by simp, hpair.1.symm⟩

/-- The scripts find the screen over which the point lies, and Fluxbox its head, unless the point
lies on an edge between two screens: there the scripts find the left one. -/
theorem getScreen_exact_iff (h : Tiles screens) (hheads : heads.Perm (screens.map (·.head)))
    (hs : s ∈ screens) (hx : s.Spans x) (hy : s.y_offset ≤ y ∧ y < s.y_offset + s.height) :
    (getScreen screens x = .ok s ∧ (∀ t ∈ screens, t.Spans x → t = s) ∧
      ∃ n, headOf ⟨x, y, 1, 1⟩ heads = some n ∧ heads[n - 1]? = some s.head) ↔
    (x = s.x_offset → ∀ t ∈ screens, s.x_offset ≤ t.x_offset) := by
  have hunique : ∀ t ∈ screens, t.Spans x → t = s := fun t ht hspans => h.unique ht hs hspans hx
  have hhead := headOf_pixel h hheads hs hx hy
  have hgoal : (getScreen screens x = .ok s ∧ (∀ t ∈ screens, t.Spans x → t = s) ∧
      ∃ n, headOf ⟨x, y, 1, 1⟩ heads = some n ∧ heads[n - 1]? = some s.head) ↔
      getScreen screens x = .ok s :=
    ⟨fun hall => hall.1, fun hget => ⟨hget, hunique, hhead⟩⟩
  rw [hgoal]
  obtain ⟨before, after, hsplit⟩ := List.append_of_mem hs
  have hordered := h.ordered
  rw [hsplit, List.pairwise_append] at hordered
  have hbefore : ∀ t ∈ before, t.right ≤ s.x_offset ∧ 0 < t.width := fun t ht =>
    have hpair := hordered.2.2 t ht s List.mem_cons_self
    ⟨hpair.1, hpair.2.1⟩
  have hafter : ∀ t ∈ after, s.right ≤ t.x_offset := fun t ht =>
    (List.rel_of_pairwise_cons hordered.2.1 ht).1
  have hself : (s :: after).find? (fun s => s.x_offset ≤ x ∧ x ≤ s.right) = some s :=
    List.find?_cons_of_pos (decide_eq_true ⟨hx.1, hx.2.le⟩)
  constructor
  · intro hget hedge t ht
    rw [hsplit] at ht
    obtain ht | ht := List.mem_append.mp ht
    · exfalso
      -- The neighbour on the left ends at the point and is found first.
      obtain ⟨n, hn, hright⟩ := h.neighbour hsplit (List.ne_nil_of_mem ht)
      have hpoint : ((n.x_offset : Nat) : Int) ≤ x ∧ x ≤ n.right := by
        have hwidth := (hbefore n hn).2
        unfold CachedScreen.right at *
        omega
      have hearly : (before.find? fun s => s.x_offset ≤ x ∧ x ≤ s.right).isSome :=
        List.find?_isSome.mpr ⟨n, hn, decide_eq_true hpoint⟩
      obtain ⟨m, hm⟩ := Option.isSome_iff_exists.mp hearly
      have hfound : getScreen screens x = .ok m := by
        unfold getScreen
        rw [hsplit, List.find?_append, hm]
        rfl
      obtain rfl := Except.ok.inj (hfound.symm.trans hget)
      obtain ⟨hle, hwidth⟩ := hbefore m (List.mem_of_find?_eq_some hm)
      unfold CachedScreen.right at hle
      omega
    · obtain rfl | ht := List.mem_cons.mp ht
      · exact le_rfl
      · have hright := hafter t ht
        unfold CachedScreen.right at hright
        omega
  · intro hedge
    have hnone : before.find? (fun s => s.x_offset ≤ x ∧ x ≤ s.right) = none := by
      refine List.find?_eq_none.mpr fun t ht hpoint => ?_
      have hpoint := of_decide_eq_true hpoint
      obtain ⟨hright, hwidth⟩ := hbefore t ht
      have hstart := hx.1
      have hsame : x = s.x_offset := by omega
      have hleft := hedge hsame t (hsplit ▸ List.mem_append_left _ ht)
      unfold CachedScreen.right at hright
      omega
    unfold getScreen
    rw [hsplit, List.find?_append, hnone, hself]
    rfl

/-- A laptop with a projector on its right, as it is cached. -/
def extendedScreens : List CachedScreen :=
  [⟨.text "eDP-1", true, 1920, 1080, 0, 0, 310, 170, 0⟩,
    ⟨.text "HDMI-1", false, 1920, 1080, 1920, 0, 0, 0, 1⟩]

theorem extendedScreens_tiles : Tiles extendedScreens := by
  constructor
  · decide
  · simp [extendedScreens, CachedScreen.right]

theorem getScreen_exact_middle :
    getScreen extendedScreens 2000 = .ok ⟨.text "HDMI-1", false, 1920, 1080, 1920, 0, 0, 0, 1⟩ :=
  ((getScreen_exact_iff extendedScreens_tiles (List.Perm.refl _)
    (by decide) (by unfold CachedScreen.Spans; decide)
      (by decide : (0 : Int) ≤ 100 ∧ 100 < (0 : Int) + 1080)).mpr fun hedge => by
        cases hedge).1

/-- On the left edge of the projector the scripts find the laptop, and Fluxbox the projector. -/
theorem getScreen_shared_edge :
    getScreen extendedScreens 1920 = .ok ⟨.text "eDP-1", true, 1920, 1080, 0, 0, 310, 170, 0⟩ ∧
      headOf ⟨1920, 100, 1, 1⟩ (extendedScreens.map (·.head)) = some 2 := by
  constructor
  · rfl
  · decide

end Points

end MonitorController
