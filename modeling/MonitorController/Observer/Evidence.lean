import MonitorController.Foundation.Words
import MonitorController.Values.Observation

/-! # Command evidence

The captured text of one command or profile file, and the bounded list of what
the parsers found wrong with it. Parsers only ever add to the list, so a list
which stays empty means that every check was passed.
-/

namespace MonitorController

open Words

def maxCommandBytes : Nat := 1048576

def maxParseIssues : Nat := 16

def maxIssueDetailChars : Nat := 160

def maxReferenceChars : Nat := 512

/-- `MAX_EXIT_STATUS` of a captured command. -/
def maxCommandStatus : Nat := 255

inductive ParseIssueCode where
  | tooLarge | commandFailed | commandTimedOut | malformedLine | duplicate | missingRequired
  | inconsistent | unsupportedWildcard | topologyMismatch | unmatched | collision | ambiguous
  deriving DecidableEq, Repr

/-- One bounded error which never embeds unrestricted raw command output. -/
structure ParseIssue where
  source : RawEvidenceSource
  code : ParseIssueCode
  detail : String
  line : Option Nat
  deriving DecidableEq

/-- The lower case digits of a SHA-256 digest. -/
structure HexDigest where
  value : String
  length : value.toList.length = 64
  digits : ∀ c ∈ value.toList, c ∈ "0123456789abcdef".toList

theorem HexDigest.nonblank (d : HexDigest) : nonempty d.value = true := by
  have hpos : 0 < d.value.toList.length := by
    rw [d.length]
    decide
  obtain ⟨c, hc⟩ := List.exists_mem_of_length_pos hpos
  refine nonempty_of_mem hc ?_
  have hdigits : ("0123456789abcdef".toList.all fun c => !isSpace c) = true := by decide
  simpa using List.all_eq_true.mp hdigits c (d.digits c hc)

/-- The bytes of a text, as Python's `str.encode` gives them. -/
def encodeText (text : String) : List UInt8 := text.toUTF8.data.toList

/-- The text of well-formed bytes, as Python's `bytes.decode` gives it. -/
def decodeText (content : List UInt8) : Option String := String.fromUTF8? ⟨content.toArray⟩

@[simp] theorem decodeText_encodeText (text : String) :
    decodeText (encodeText text) = some text := by
  have hbytes : (⟨(encodeText text).toArray⟩ : ByteArray) = text.toUTF8 := by
    simp [encodeText]
  unfold decodeText String.fromUTF8?
  rw [hbytes, String.toUTF8_eq_toByteArray, dif_pos text.isValidUTF8]
  rfl

theorem length_encodeText (text : String) : (encodeText text).length = text.utf8ByteSize := by
  rw [encodeText, Array.length_toList]
  rfl

/-- Injected, non-executing result of one documented command interface. -/
structure TextCommandEvidence where
  source : RawEvidenceSource
  reference : String
  stdout : String
  exitStatus : Nat := 0
  timedOut : Bool := false
  reference_bounded : reference ≠ "" ∧ reference.length ≤ maxReferenceChars
  status_bounded : exitStatus ≤ maxCommandStatus := by decide
  timed_out_failed : timedOut = true → exitStatus ≠ 0 := by decide

/-- The model-level reference and digest; a blank reference is refused there. -/
def TextCommandEvidence.rawReference (hexdigest : List UInt8 → HexDigest)
    (evidence : TextCommandEvidence) : Option RawEvidenceReference :=
  if h : nonempty evidence.reference = true then
    let digest := hexdigest (encodeText evidence.stdout)
    some ⟨evidence.source, ⟨evidence.reference, h⟩, ⟨digest.value, digest.nonblank⟩⟩
  else none

/-- Collect only a fixed number of sanitized parser issues. -/
structure IssueCollector where
  source : RawEvidenceSource
  issues : List ParseIssue
  bounded : issues.length ≤ maxParseIssues

namespace IssueCollector

def empty (source : RawEvidenceSource) : IssueCollector := ⟨source, [], Nat.zero_le _⟩

def sanitize (detail : String) : String :=
  String.ofList (([' '].intercalate (words isSpace detail.toList)).take maxIssueDetailChars)

/-- Append a sanitized issue unless the fixed issue budget is exhausted. -/
def add (c : IssueCollector) (code : ParseIssueCode) (detail : String)
    (line : Option Nat := none) : IssueCollector :=
  if h : maxParseIssues ≤ c.issues.length then c
  else
    { c with
      issues := c.issues ++ [⟨c.source, code, sanitize detail, line⟩]
      bounded := by simp only [List.length_append, List.length_singleton]; omega }

def report (c : IssueCollector) (fault : Bool) (code : ParseIssueCode) (detail : String)
    (line : Option Nat := none) : IssueCollector :=
  if fault then c.add code detail line else c

def reportEach {α : Type} (c : IssueCollector) (items : List α) (fault : α → Bool)
    (code : ParseIssueCode) (detail : String) : IssueCollector :=
  items.foldl (fun c item => c.report (fault item) code detail) c

variable {c : IssueCollector} {code : ParseIssueCode} {detail : String} {line : Option Nat}

@[simp] theorem issues_add_ne_nil : (c.add code detail line).issues ≠ [] := by
  unfold add
  split
  · rename_i h
    rintro hnil
    simp [hnil, maxParseIssues] at h
  · simp

@[simp] theorem issues_report_eq_nil {fault : Bool} :
    (c.report fault code detail line).issues = [] ↔ c.issues = [] ∧ fault = false := by
  cases fault <;> simp [report]

@[simp] theorem issues_reportEach_eq_nil {α : Type} {items : List α} {fault : α → Bool} :
    (c.reportEach items fault code detail).issues = [] ↔
      c.issues = [] ∧ ∀ a ∈ items, fault a = false := by
  unfold reportEach
  induction items generalizing c with
  | nil => simp
  | cons a items ih =>
    rw [List.foldl_cons, ih, issues_report_eq_nil]
    simp [and_assoc]

end IssueCollector

/-- Validate command metadata and split bounded text into lines. -/
def boundedLines (evidence : TextCommandEvidence) (expectedSource : RawEvidenceSource)
    (c : IssueCollector) : Option (List (List Char)) × IssueCollector :=
  if evidence.source ≠ expectedSource then
    (none, c.add .inconsistent "unexpected raw evidence source")
  else if evidence.timedOut then
    (none, c.add .commandTimedOut "documented command timed out")
  else if evidence.exitStatus ≠ 0 then
    (none, c.add .commandFailed
      ("documented command exited with status " ++ toString evidence.exitStatus))
  else if maxCommandBytes < evidence.stdout.utf8ByteSize then
    (none, c.add .tooLarge
      ("command output exceeds the " ++ toString maxCommandBytes ++ "-byte limit"))
  else (some (splitLines evidence.stdout.toList), c)

theorem boundedLines_issues {evidence : TextCommandEvidence} {source : RawEvidenceSource}
    {c : IssueCollector} (h : (boundedLines evidence source c).2.issues = []) :
    boundedLines evidence source c = (some (splitLines evidence.stdout.toList), c) := by
  unfold boundedLines at h ⊢
  split at h
  · exact absurd h IssueCollector.issues_add_ne_nil
  split at h
  · exact absurd h IssueCollector.issues_add_ne_nil
  split at h
  · exact absurd h IssueCollector.issues_add_ne_nil
  split at h
  · exact absurd h IssueCollector.issues_add_ne_nil
  simp_all

theorem boundedLines_clear {evidence : TextCommandEvidence} {source : RawEvidenceSource}
    {c : IssueCollector} : ∀ lines ∈ (boundedLines evidence source c).1, ∀ line ∈ lines,
      ∀ c ∈ line, isLineBreak c = false := by
  intro lines hlines line hline
  unfold boundedLines at hlines
  split at hlines; · cases hlines
  split at hlines; · cases hlines
  split at hlines; · cases hlines
  split at hlines; · cases hlines
  obtain rfl := Option.some.inj hlines
  exact clear_of_mem_splitLines hline

theorem boundedLines_eq {evidence : TextCommandEvidence} {source : RawEvidenceSource}
    {c : IssueCollector} (hsource : evidence.source = source) (htime : evidence.timedOut = false)
    (hstatus : evidence.exitStatus = 0)
    (hsize : (encodeText evidence.stdout).length ≤ maxCommandBytes) :
    boundedLines evidence source c = (some (splitLines evidence.stdout.toList), c) := by
  rw [length_encodeText] at hsize
  unfold boundedLines
  rw [if_neg (by simp [hsource]), if_neg (by simp [htime]), if_neg (by simp [hstatus]),
    if_neg (by omega)]

end MonitorController
