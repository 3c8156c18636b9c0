import MonitorController.Foundation.Assignments
import MonitorController.Foundation.Json
import MonitorController.Foundation.Outcome

/-! # The panel verdict

The mapped windows of the panel process prove that the planned panels are there
when exactly one assignment of the windows to the planned places fits. The tests
before the search reject evidence which is missing, malformed or stale.
-/

namespace MonitorController

/-- An integer of the evidence; a Boolean counts as one. -/
structure EvidenceInt where
  value : Int
  isBool : Bool := false
  deriving DecidableEq, Repr

structure PanelGeometry where
  x : EvidenceInt
  y : EvidenceInt
  width : EvidenceInt
  height : EvidenceInt
  deriving DecidableEq, Repr

/-- One root client with enough evidence to prove or reject panel health. -/
structure PanelWindowEvidence where
  windowId : Nat
  mapped : Bool
  wmClass : Option (String × String)
  windowType : Option (List String)
  pid : Option EvidenceInt
  processComm : Option String
  geometry : Option PanelGeometry
  strut : Option (List EvidenceInt)

/-- Exact output placement, with optional intentionally unconstrained height. -/
structure PanelExpectation where
  x : Int
  width : Int
  top : Int
  bottom : Int
  rootHeight : Int
  height : Option Int
  deriving DecidableEq, Repr

structure PanelHealth where
  healthy : Bool
  reason : String
  observedPids : List Int
  commonPid : Option Int
  diagnostic : String

def panelClass : String × String := ("xfce4-panel", "Xfce4-panel")

def panelComm : String := "xfce4-panel"

def dockType : String := "_NET_WM_WINDOW_TYPE_DOCK"

def maxActivePanels : Nat := 3

section Diagnostic

def diagnosticPanelLimit : Nat := 6

def diagnosticTypeLimit : Nat := 4

def diagnosticTextLimit : Nat := 64

def diagnosticMaxBytes : Nat := 4096

/-- `_diagnostic_text`, and whether anything was cut off. -/
def diagnosticText (value : String) : String × Bool :=
  (String.ofList (value.toList.take diagnosticTextLimit), diagnosticTextLimit < value.length)

def EvidenceInt.json (n : EvidenceInt) : Json :=
  if n.isBool then .bool (n.value ≠ 0) else .int n.value

def optionalJson {α : Type} (f : α → Json) : Option α → Json
  | none => .null
  | some a => f a

def PanelGeometry.json (g : PanelGeometry) : Json :=
  .arr [g.x.json, g.y.json, g.width.json, g.height.json]

def PanelWindowEvidence.json (w : PanelWindowEvidence) : Json :=
  .obj [("geometry", optionalJson PanelGeometry.json w.geometry),
    ("id", .str ("0x" ++ String.ofList (Nat.toDigits 16 w.windowId))),
    ("mapped", .bool w.mapped),
    ("pid", optionalJson EvidenceInt.json w.pid),
    ("process", optionalJson (fun comm => .str (diagnosticText comm).1) w.processComm),
    ("strut", optionalJson (fun values => .arr (values.map EvidenceInt.json)) w.strut),
    ("type", optionalJson (fun types =>
      .arr ((types.take diagnosticTypeLimit).map fun t => .str (diagnosticText t).1)) w.windowType)]

def PanelWindowEvidence.truncated (w : PanelWindowEvidence) : Bool :=
  (w.processComm.any fun comm => (diagnosticText comm).2) ||
    w.windowType.any fun types => diagnosticTypeLimit < types.length ||
      (types.take diagnosticTypeLimit).any fun t => (diagnosticText t).2

def PanelExpectation.json (e : PanelExpectation) : Json :=
  .obj [("bottom", .int e.bottom), ("height", optionalJson Json.int e.height),
    ("root_height", .int e.rootHeight), ("top", .int e.top), ("width", .int e.width),
    ("x", .int e.x)]

/-- `journal_panel_diagnostic` of an object it reads back as it was written. -/
def journalPanelDiagnostic (payload : Json) : String :=
  let diagnostic := payload.dumps
  if diagnostic.utf8ByteSize ≤ diagnosticMaxBytes then diagnostic
  else (Json.obj [("diagnostic", .str "discarded-invalid-or-over-limit"),
    ("encoded_bytes", .int diagnostic.utf8ByteSize), ("truncated", .bool true)]).dumps

def panelDiagnostic (windows : List PanelWindowEvidence)
    (expected : Option (List PanelExpectation)) : String :=
  let panels := windows.filter fun w => w.wmClass = some panelClass
  let shown := panels.take diagnosticPanelLimit
  journalPanelDiagnostic <| .obj
    [("expected", optionalJson (fun es => .arr (es.map PanelExpectation.json)) expected),
      ("observed", .arr (shown.map PanelWindowEvidence.json)),
      ("observed_count", .int panels.length),
      ("truncated", .bool (shown.any (·.truncated) || diagnosticPanelLimit < panels.length))]

end Diagnostic

section Assess

def validGeometry (value : Option PanelGeometry) : Bool :=
  value.any fun g => [g.x, g.y, g.width, g.height].all (!·.isBool) && 0 < g.width.value &&
    0 < g.height.value

def validStrut (value : Option (List EvidenceInt)) : Bool :=
  value.any fun s => s.length = 12 && s.all fun n => !n.isBool && 0 ≤ n.value

def matchesExpectation (window : PanelWindowEvidence) (expected : PanelExpectation) : Bool :=
  match window.geometry, window.strut with
  | some g, some strut =>
    g.x.value = expected.x && g.width.value = expected.width && expected.top ≤ g.y.value &&
      g.y.value + g.height.value = expected.bottom &&
      (expected.height.all fun h => g.height.value = h) &&
      strut.map (·.value) = [0, 0, 0, expected.rootHeight - g.y.value, 0, 0, 0, 0, 0, 0,
        g.x.value, g.x.value + g.width.value - 1]
  | _, _ => false

def PanelWindowEvidence.positivePid (w : PanelWindowEvidence) : Option Int :=
  match w.pid with
  | some ⟨pid, false⟩ => if 0 < pid then some pid else none
  | _ => none

def panelCandidates (windows : List PanelWindowEvidence) : List PanelWindowEvidence :=
  windows.filter fun w => w.mapped && w.wmClass = some panelClass

def observedPids (candidates : List PanelWindowEvidence) : List Int :=
  (candidates.filterMap (·.positivePid)).dedup.insertionSort (· ≤ ·)

/-- Why the evidence is rejected, and the PID which is common to it by then. -/
structure Rejection where
  reason : String
  commonPid : Option Int
  deriving DecidableEq

def reject (condition : Prop) [Decidable condition] (reason : String)
    (commonPid : Option Int := none) : Except Rejection PUnit :=
  if condition then .error ⟨reason, commonPid⟩ else .ok ⟨⟩

/-- The tests of `assess_panel_snapshot` in their order, up to the common PID. -/
def panelVerdict (candidates : List PanelWindowEvidence) (expected : List PanelExpectation)
    (excludedPids : List Int) : Except Rejection Int := do
  reject (candidates.length ≠ expected.length) "mapped panel window count differs"
  reject (maxActivePanels < candidates.length) "mapped panel window count exceeds proof bound"
  reject (∃ w ∈ candidates, w.windowType ≠ some [dockType])
    "panel window type is missing or malformed"
  reject (∃ w ∈ candidates, w.positivePid = none) "panel PID is missing or malformed"
  match observedPids candidates with
  | [commonPid] =>
    reject (commonPid ∈ excludedPids) "panel replacement still uses an old PID"
    reject (∃ w ∈ candidates, w.processComm ≠ some panelComm)
      "panel process evidence is missing or stale"
    reject (∃ w ∈ candidates, validGeometry w.geometry = false)
      "panel geometry is missing or malformed"
    reject (∃ w ∈ candidates, validStrut w.strut = false) "panel strut is missing or malformed"
    let assignments := Assignment.assignments matchesExpectation candidates expected
    reject (assignments = []) "panel geometry or strut assignment differs" (some commonPid)
    reject (assignments.length ≠ 1) "panel geometry or strut assignment is ambiguous"
      (some commonPid)
    pure commonPid
  | _ => .error ⟨"panel windows have mixed PIDs", none⟩

def assessPanelSnapshot (windows : List PanelWindowEvidence)
    (expected : Option (List PanelExpectation)) (excludedPids : List Int) : PanelHealth :=
  let diagnostic := panelDiagnostic windows expected
  match expected with
  | none =>
    { healthy := false, reason := "expected panel geometry is unprovable", observedPids := [],
      commonPid := none, diagnostic }
  | some expected =>
    let candidates := panelCandidates windows
    match panelVerdict candidates expected excludedPids with
    | .error rejection =>
      { healthy := false, reason := rejection.reason, observedPids := observedPids candidates,
        commonPid := rejection.commonPid, diagnostic }
    | .ok commonPid =>
      { healthy := true, reason := "exact panel evidence matches",
        observedPids := observedPids candidates, commonPid := some commonPid, diagnostic := "" }

end Assess

section Verdict

variable {candidates : List PanelWindowEvidence} {expected : List PanelExpectation}
  {excludedPids : List Int} {pid : Int}

@[simp] theorem reject_eq_ok {condition : Prop} [Decidable condition] {reason : String}
    {commonPid : Option Int} : reject condition reason commonPid = .ok ⟨⟩ ↔ ¬ condition := by
  unfold reject
  split <;> simp_all

theorem reject_congr {p q : Prop} [Decidable p] [Decidable q] (h : p ↔ q) (reason : String)
    (commonPid : Option Int) : reject p reason commonPid = reject q reason commonPid := by
  unfold reject
  by_cases hp : p
  · rw [if_pos hp, if_pos (h.mp hp)]
  · rw [if_neg hp, if_neg fun hq => hp (h.mpr hq)]

theorem reject_bind_eq_ok {α : Type} {condition : Prop} [Decidable condition] {reason : String}
    {commonPid : Option Int} {next : Except Rejection α} {a : α} :
    (reject condition reason commonPid >>= fun _ => next) = .ok a ↔ ¬ condition ∧ next = .ok a := by
  rw [Outcome.bind_eq_ok]
  constructor
  · rintro ⟨⟨⟩, hpass, hnext⟩
    exact ⟨reject_eq_ok.mp hpass, hnext⟩
  · rintro ⟨hpass, hnext⟩
    exact ⟨⟨⟩, reject_eq_ok.mpr hpass, hnext⟩

theorem positivePid_eq_some {w : PanelWindowEvidence} :
    w.positivePid = some pid ↔ 0 < pid ∧ w.pid = some ⟨pid, false⟩ := by
  unfold PanelWindowEvidence.positivePid
  split
  · rename_i value hvalue
    rw [hvalue]
    split
    · simp only [Option.some.injEq, EvidenceInt.mk.injEq, and_true]
      constructor
      · rintro rfl
        exact ⟨‹_›, rfl⟩
      · exact And.right
    · simp only [reduceCtorEq, Option.some.injEq, EvidenceInt.mk.injEq, and_true, false_iff, not_and]
      rintro hpos rfl
      contradiction
  · rename_i hother
    simp only [reduceCtorEq, false_iff, not_and]
    exact fun _ => hother pid

theorem mem_observedPids :
    pid ∈ observedPids candidates ↔ ∃ w ∈ candidates, w.positivePid = some pid := by
  rw [observedPids, (List.perm_insertionSort _ _).mem_iff, List.mem_dedup, List.mem_filterMap]

theorem observedPids_nodup : (observedPids candidates).Nodup :=
  (List.perm_insertionSort _ _).nodup_iff.mpr (List.nodup_dedup _)

theorem observedPids_eq_singleton :
    observedPids candidates = [pid] ↔ ∀ q, q ∈ observedPids candidates ↔ q = pid := by
  rw [← List.perm_singleton,
    List.perm_ext_iff_of_nodup observedPids_nodup (List.nodup_singleton pid)]
  simp only [List.mem_singleton]

/-- The PIDs of the windows are one, which is an integer above zero. -/
theorem observedPids_common :
    (¬ ∃ w ∈ candidates, w.positivePid = none) ∧ observedPids candidates = [pid] ↔
      0 < pid ∧ ∀ q, (∃ w ∈ candidates, w.pid = q) ↔ q = some ⟨pid, false⟩ := by
  rw [observedPids_eq_singleton]
  simp only [mem_observedPids]
  constructor
  · rintro ⟨hnone, hpids⟩
    obtain ⟨w, hw, hwpid⟩ := (hpids pid).mpr rfl
    refine ⟨(positivePid_eq_some.mp hwpid).1, fun q => ⟨?_, ?_⟩⟩
    · rintro ⟨v, hv, rfl⟩
      obtain ⟨p, hp⟩ := Option.ne_none_iff_exists'.mp fun h => hnone ⟨v, hv, h⟩
      obtain rfl := (hpids p).mp ⟨v, hv, hp⟩
      exact (positivePid_eq_some.mp hp).2
    · rintro rfl
      exact ⟨w, hw, (positivePid_eq_some.mp hwpid).2⟩
  · rintro ⟨hpos, hpids⟩
    have hall : ∀ v ∈ candidates, v.positivePid = some pid := fun v hv =>
      positivePid_eq_some.mpr ⟨hpos, (hpids v.pid).mp ⟨v, hv, rfl⟩⟩
    refine ⟨?_, fun q => ⟨?_, ?_⟩⟩
    · rintro ⟨v, hv, hnone⟩
      rw [hall v hv] at hnone
      cases hnone
    · rintro ⟨v, hv, hq⟩
      exact Option.some.inj (hq.symm.trans (hall v hv))
    · rintro rfl
      obtain ⟨w, hw, -⟩ := (hpids _).mpr rfl
      exact ⟨w, hw, hall w hw⟩

/-- What proves that the panels are there and healthy. -/
structure PanelsProven (candidates : List PanelWindowEvidence) (expected : List PanelExpectation)
    (excludedPids : List Int) (pid : Int) : Prop where
  count : candidates.length = expected.length
  bound : candidates.length ≤ maxActivePanels
  dock : ∀ w ∈ candidates, w.windowType = some [dockType]
  positive : 0 < pid
  common : ∀ q, (∃ w ∈ candidates, w.pid = q) ↔ q = some ⟨pid, false⟩
  fresh : pid ∉ excludedPids
  live : ∀ w ∈ candidates, w.processComm = some panelComm
  geometry : ∀ w ∈ candidates, validGeometry w.geometry = true
  strut : ∀ w ∈ candidates, validStrut w.strut = true
  bijection : ∃! σ : Fin candidates.length ≃ Fin expected.length,
    Assignment.Fits matchesExpectation σ

theorem panelVerdict_eq_ok : panelVerdict candidates expected excludedPids = .ok pid ↔
    PanelsProven candidates expected excludedPids pid := by
  unfold panelVerdict
  simp only [reject_bind_eq_ok, not_not]
  constructor
  · rintro ⟨hcount, hbound, hdock, hpids, h⟩
    split at h
    · rename_i commonPid hcommon
      simp only [reject_bind_eq_ok, not_not] at h
      obtain ⟨hfresh, hlive, hgeometry, hstrut, -, hone, h⟩ := h
      obtain rfl : commonPid = pid := Except.ok.inj h
      obtain ⟨hpositive, hall⟩ := observedPids_common.mp ⟨hpids, hcommon⟩
      constructor
      case count => exact hcount
      case bound => exact Nat.not_lt.mp hbound
      case dock => simpa using hdock
      case positive => exact hpositive
      case common => exact hall
      case fresh => exact hfresh
      case live => simpa using hlive
      case geometry => simpa using hgeometry
      case strut => simpa using hstrut
      case bijection => exact (Assignment.length_assignments hcount).mp hone
    · cases h
  · intro h
    obtain ⟨hpids, hcommon⟩ := observedPids_common.mpr ⟨h.positive, h.common⟩
    have hone := (Assignment.length_assignments h.count).mpr h.bijection
    refine ⟨h.count, Nat.not_lt.mpr h.bound, by simpa using h.dock, hpids, ?_⟩
    rw [hcommon]
    simp only [reject_bind_eq_ok, not_not]
    refine ⟨h.fresh, by simpa using h.live, by simpa using h.geometry, by simpa using h.strut, ?_,
      hone, rfl⟩
    intro hnil
    rw [hnil] at hone
    cases hone

section Order

variable {others : List PanelWindowEvidence} {shuffled : List PanelExpectation}

theorem observedPids_perm (h : candidates.Perm others) :
    observedPids candidates = observedPids others := by
  have hperm : (observedPids candidates).Perm (observedPids others) :=
    ((List.perm_insertionSort _ _).trans (h.filterMap _).dedup).trans
      (List.perm_insertionSort _ _).symm
  exact hperm.eq_of_pairwise' (List.pairwise_insertionSort _ _) (List.pairwise_insertionSort _ _)

theorem exists_mem_perm (h : candidates.Perm others) (p : PanelWindowEvidence → Prop) :
    (∃ w ∈ candidates, p w) ↔ ∃ w ∈ others, p w := by
  simp only [h.mem_iff]

theorem panelVerdict_perm (hwindows : candidates.Perm others) (hexpected : expected.Perm shuffled) :
    panelVerdict candidates expected excludedPids = panelVerdict others shuffled excludedPids := by
  unfold panelVerdict
  rw [hwindows.length_eq, hexpected.length_eq, observedPids_perm hwindows]
  simp only [reject_congr (exists_mem_perm hwindows _)]
  by_cases hcount : others.length = shuffled.length
  · have hlength : candidates.length = expected.length := by
      rw [hwindows.length_eq, hexpected.length_eq, hcount]
    have hone : (Assignment.assignments matchesExpectation candidates expected).length = 1 ↔
        (Assignment.assignments matchesExpectation others shuffled).length = 1 :=
      Assignment.length_assignments_perm hwindows hexpected hlength
    simp only [Assignment.assignments_eq_nil_perm hwindows hexpected hlength, ne_eq, hone]
  · simp [reject, hcount]

end Order

theorem assess_healthy {windows : List PanelWindowEvidence} :
    (assessPanelSnapshot windows (some expected) excludedPids).healthy = true ↔
      ∃ pid, PanelsProven (panelCandidates windows) expected excludedPids pid := by
  simp only [assessPanelSnapshot, ← panelVerdict_eq_ok]
  cases hverdict : panelVerdict (panelCandidates windows) expected excludedPids with
  | error rejection => simp
  | ok pid => simp

/-- The panels are healthy exactly on proof, whatever the order of windows and expectations. -/
theorem panel_verdict_exact :
    (∀ windows expected excludedPids,
      (assessPanelSnapshot windows expected excludedPids).healthy = true ↔
        ∃ es pid, expected = some es ∧
          PanelsProven (panelCandidates windows) es excludedPids pid) ∧
    ∀ windows windows' expected expected' excludedPids, List.Perm windows windows' →
      List.Perm expected expected' →
      let health := assessPanelSnapshot windows (some expected) excludedPids
      let health' := assessPanelSnapshot windows' (some expected') excludedPids
      health.healthy = health'.healthy ∧ health.reason = health'.reason ∧
        health.commonPid = health'.commonPid ∧ health.observedPids = health'.observedPids := by
  constructor
  · intro windows expected excludedPids
    cases expected with
    | none => simp [assessPanelSnapshot]
    | some es => simp [assess_healthy]
  · intro windows windows' expected expected' excludedPids hwindows hexpected
    have hcandidates : (panelCandidates windows).Perm (panelCandidates windows') :=
      hwindows.filter _
    simp only [assessPanelSnapshot, panelVerdict_perm hcandidates hexpected,
      observedPids_perm hcandidates]
    split <;> simp

/-- The window of a panel at the bottom of a screen of 1920 by 1080 pixels. -/
def dockWindow (x : Int) : PanelWindowEvidence :=
  { windowId := 1, mapped := true, wmClass := some panelClass, windowType := some [dockType],
    pid := some ⟨42, false⟩, processComm := some panelComm,
    geometry := some ⟨⟨x, false⟩, ⟨1049, false⟩, ⟨1920, false⟩, ⟨31, false⟩⟩
    strut := some ([0, 0, 0, 31, 0, 0, 0, 0, 0, 0, x, x + 1919].map (⟨·, false⟩)) }

def dockExpectation (x : Int) : PanelExpectation := ⟨x, 1920, 0, 1080, 1080, some 31⟩

theorem panel_verdict_exact_swapped :
    (assessPanelSnapshot [dockWindow 0, dockWindow 1920]
      (some [dockExpectation 0, dockExpectation 1920]) []).healthy = true ∧
    (assessPanelSnapshot [dockWindow 0, dockWindow 1920]
      (some [dockExpectation 0, dockExpectation 1920]) []).commonPid =
    (assessPanelSnapshot [dockWindow 1920, dockWindow 0]
      (some [dockExpectation 1920, dockExpectation 0]) []).commonPid :=
  ⟨by decide +kernel, (panel_verdict_exact.2 _ _ _ _ [] (.swap _ _ _) (.swap _ _ _)).2.2.1⟩

end Verdict

end MonitorController
