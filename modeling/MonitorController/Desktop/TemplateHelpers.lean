import MonitorController.Desktop.Layout
import MonitorController.Desktop.LayoutPaths
import MonitorController.Foundation.Quoting

/-! # Template helpers

An expression of the keys template calls one of a few helpers, whose arguments
are put into a command. The arguments are filtered so that they cannot change
how the command is read.
-/

namespace MonitorController

open Quoting

/-- What escapes the renderer: its own error, or that of an overlong number. -/
inductive TemplateFault where
  | fluxboxRender (message : String)
  | unknownExpression (expression : String)
  | valueError
  deriving DecidableEq, Repr

def maxDelayMs : Nat := 600000

/-- `_UNSAFE_HELPER_CHARACTERS`. -/
def unsafeHelperCharacter (c : Char) : Bool :=
  c ∈ ['$', '\x60', '\x22', '\x27', ';', '&', '{', '}', '\\'] || c.toNat < 0x20

/-- A character of `_MODE_NAME`. -/
def modeCharacter (c : Char) : Bool := asciiAlnum c || c = '_' || c = '-'

def validateHelperText (value context : String) : Except TemplateFault String :=
  if value.toList.any unsafeHelperCharacter then
    .error (.fluxboxRender ("Fluxbox " ++ context ++ " contain unsafe characters"))
  else .ok value

def validateModeName (value context : String) : Except TemplateFault String :=
  if value ≠ "" ∧ value.toList.all modeCharacter = false then
    .error (.fluxboxRender ("Fluxbox " ++ context ++ " is not a plain mode name"))
  else .ok value

def validatedDelay (digits : List Char) : Except TemplateFault Nat :=
  if maxIntegerDigits < digits.length then .error .valueError
  else if maxDelayMs < Nat.ofDigitChars 10 digits 0 then
    .error (.fluxboxRender "Fluxbox delay exceeds its bound")
  else .ok (Nat.ofDigitChars 10 digits 0)

/-- A call of a helper with the arguments it is given. -/
inductive Helper where
  | reconfigure
  | layout
  | focusActive
  | monitorsConnected
  | loopValue
  | forKeyMode
  | notify (message : String)
  | keymode (mode body : String)
  | keymodeDone (mode : String)
  | notifyTransient (message mode : String)
  | delay (action : String) (milliseconds : Nat)
  | delayNotify (message : String) (milliseconds : Nat)
  | nextUnhidden (selector : String) (focus prev native : Bool)
  deriving DecidableEq, Repr

section Read

def afterLiteral (literal : String) (text : List Char) : Option (List Char) :=
  if literal.toList.isPrefixOf text then some (text.drop literal.length) else none

def takeQuoted (q : Char) : List Char → Option (String × List Char)
  | [] => none
  | c :: text =>
    if c = q then
      match text.dropWhile (· ≠ q) with
      | [] => none
      | _ :: rest => some (String.ofList (text.takeWhile (· ≠ q)), rest)
    else none

/-- `, ([1-9][0-9]*)\)` at the end of an expression. -/
def takeDelay (text : List Char) : Option (List Char) := do
  let text ← afterLiteral ", " text
  let digits := text.dropLast
  if text.getLast? = some ')' ∧ digits.all Char.isDigit ∧ digits ≠ [] ∧ digits.head? ≠ some '0' then
    some digits
  else none

/-- `notify '([^']*)'`. -/
def readNotify (text : List Char) : Option String := do
  let text ← afterLiteral "notify " text
  let (message, rest) ← takeQuoted '\x27' text
  if rest = [] then some message else none

/-- `keymode '([^']*)'(?:, '([^']*)')?`. -/
def readKeymode (text : List Char) : Option (String × String) := do
  let text ← afterLiteral "keymode " text
  let (mode, rest) ← takeQuoted '\x27' text
  if rest = [] then some (mode, "")
  else
    let text ← afterLiteral ", " rest
    let (body, rest) ← takeQuoted '\x27' text
    if rest = [] then some (mode, body) else none

/-- `keymode_done '([^']*)'`. -/
def readKeymodeDone (text : List Char) : Option String := do
  let text ← afterLiteral "keymode_done " text
  let (mode, rest) ← takeQuoted '\x27' text
  if rest = [] then some mode else none

/-- `notify_transient '([^']*)', '([^']*)'`. -/
def readNotifyTransient (text : List Char) : Option (String × String) := do
  let text ← afterLiteral "notify_transient " text
  let (message, rest) ← takeQuoted '\x27' text
  let text ← afterLiteral ", " rest
  let (mode, rest) ← takeQuoted '\x27' text
  if rest = [] then some (message, mode) else none

/-- `delay\('([^']*)', ([1-9][0-9]*)\)`. -/
def readDelay (text : List Char) : Option (String × List Char) := do
  let text ← afterLiteral "delay(" text
  let (action, rest) ← takeQuoted '\x27' text
  let digits ← takeDelay rest
  some (action, digits)

/-- `delay\(notify\('([^']*)'\), ([1-9][0-9]*)\)`. -/
def readDelayNotify (text : List Char) : Option (String × List Char) := do
  let text ← afterLiteral "delay(notify(" text
  let (message, rest) ← takeQuoted '\x27' text
  let rest ← afterLiteral ")" rest
  let digits ← takeDelay rest
  some (message, digits)

/-- `next_unhidden "([^"]*)"(.*)`. -/
def readNextUnhidden (text : List Char) : Option (String × List Char) := do
  let text ← afterLiteral "next_unhidden " text
  let (selector, rest) ← takeQuoted '\x22' text
  if '\n' ∈ rest then none else some (selector, rest)

/-- `text.split(", ")`. -/
def splitItems : List Char → List (List Char)
  | [] => [[]]
  | ',' :: ' ' :: rest => [] :: splitItems rest
  | c :: rest =>
    match splitItems rest with
    | [] => [[c]]
    | item :: items => (c :: item) :: items

/-- `(focus|prev|native): (true|false)`. -/
def readOption (item : List Char) : Option (String × Bool) :=
  [("focus", true), ("focus", false), ("prev", true), ("prev", false), ("native", true),
    ("native", false)].find? fun option =>
      (option.1 ++ ": " ++ if option.2 then "true" else "false").toList = item

/-- The loop of `_keyword_options` over the items which are left. -/
def collectOptions : List (List Char) → List (String × Bool) →
    Except TemplateFault (List (String × Bool))
  | [], options => .ok options
  | item :: items, options =>
    match readOption item with
    | none => .error (.fluxboxRender "Fluxbox helper keyword is outside the allowlist")
    | some option =>
      if option.1 ∈ options.map Prod.fst then
        .error (.fluxboxRender "Fluxbox helper keyword is repeated")
      else collectOptions items (option :: options)

/-- `_keyword_options`: the options which differ from their defaults. -/
def keywordOptions (value : List Char) : Except TemplateFault (List (String × Bool)) :=
  if value = [] then .ok []
  else match afterLiteral ", " value with
    | none => .error (.fluxboxRender "Fluxbox helper arguments are malformed")
    | some items => collectOptions (splitItems items) []

def optionOr (options : List (String × Bool)) (name : String) (default : Bool) : Bool :=
  ((options.find? (·.1 = name)).map Prod.snd).getD default

/-- The branches of `_evaluate` that match a call with arguments. -/
def readCall (text : List Char) : Except TemplateFault (Option Helper) :=
  match readNotify text with
  | some message => do
    let message ← validateHelperText message "notify arguments"
    .ok (some (.notify message))
  | none => match readKeymode text with
  | some (mode, body) => do
    let mode ← validateHelperText mode "keymode arguments"
    let body ← validateHelperText body "keymode arguments"
    .ok (some (.keymode mode body))
  | none => match readKeymodeDone text with
  | some mode => do
    let mode ← validateModeName mode "keymode_done argument"
    if mode = "" then .error (.fluxboxRender "Fluxbox keymode_done argument is empty")
    else .ok (some (.keymodeDone mode))
  | none => match readNotifyTransient text with
  | some (message, mode) => do
    let message ← validateHelperText message "notify_transient arguments"
    let mode ← validateModeName mode "notify_transient mode"
    .ok (some (.notifyTransient message mode))
  | none => match readDelay text with
  | some (action, digits) => do
    let action ← validateHelperText action "delay arguments"
    let milliseconds ← validatedDelay digits
    .ok (some (.delay action milliseconds))
  | none => match readDelayNotify text with
  | some (message, digits) => do
    let message ← validateHelperText message "delayed notify arguments"
    let milliseconds ← validatedDelay digits
    .ok (some (.delayNotify message milliseconds))
  | none => match readNextUnhidden text with
  | some (selector, rest) => do
    let selector ← validateHelperText selector "next_unhidden arguments"
    let options ← keywordOptions rest
    .ok (some (.nextUnhidden selector (optionOr options "focus" true)
      (optionOr options "prev" false) (optionOr options "native" false)))
  | none => .ok none

def readHelper (expression : String) : Except TemplateFault Helper :=
  if expression = "reconfigure" then .ok .reconfigure
  else if expression = "layout" then .ok .layout
  else if expression = "focus_active" then .ok .focusActive
  else if expression = "monitors_connected" then .ok .monitorsConnected
  else if expression = "prefix" then .ok .loopValue
  else if expression = "prefix.empty? ? '' : \x22 for KeyMode #\x7bprefix\x7d\x22" then
    .ok .forKeyMode
  else do
    match ← readCall expression.toList with
    | some helper => .ok helper
    | none => .error (.unknownExpression expression)

end Read

section Render

def focusActive (delay : Nat) (sync : Bool) : String :=
  "Delay \x7bExec focus-active-window" ++ (if sync then " --sync" else "") ++ "\x7d " ++
    toString (delay * 1000)

/-- The notification of a mode leaves its identifier in a file. -/
def identifierOption : Option String → String
  | none => ""
  | some mode => " -p >~/tmp/.fluxbox-" ++ mode ++ "-id"

/-- `_notify`. -/
def notifyCommand (message : String) (timeout : Nat) (mode : Option String) (body : String) :
    String :=
  "Exec notify-send -t " ++ toString timeout ++ " \x22" ++ message ++ "\x22 \x22" ++ body ++
    "\x22" ++ identifierOption mode

def notifyReplace (message mode : String) (timeout : Nat) : String :=
  "\x7bExec notify-send -t " ++ toString timeout ++ " -r $(cat ~/tmp/.fluxbox-" ++ mode ++
    "-id) '" ++ message ++ "'\x7d"

/-- `_keymode`. -/
def keymodeCommand (mode body : String) : String :=
  "\x7bKeyMode " ++ mode ++ "\x7d \x7b" ++
    notifyCommand ("fluxbox " ++ mode ++ " mode") 999999 (some mode) body ++ "\x7d"

/-- `_keymode_done`. -/
def keymodeDoneCommand (mode : String) : String :=
  "\x7bKeyMode default\x7d " ++ notifyReplace ("fluxbox " ++ mode ++ " done") mode 3000

/-- `_delay`. -/
def delayCommand (command : String) (milliseconds : Nat) : String :=
  "Delay \x7b" ++ command ++ "\x7d " ++ toString (milliseconds * 1000)

/-- `_next_unhidden`. -/
def nextUnhiddenCommand (selector : String) (focus prev native : Bool) : String :=
  let arguments := (if prev then "PrevWindow" else "NextWindow") ++ " " ++ selector ++
    " (FocusHidden=no) (Minimized=no)"
  if focus = false then ":" ++ arguments
  else if native then
    ":MacroCmd \x7b" ++ focusActive 300 false ++ "\x7d \x7b" ++ arguments ++ "\x7d"
  else ":Exec fluxbox-focus-window '" ++ arguments ++ "'"

/-- `_required_prefix`: the value of the loop which the expression is in. -/
def requiredLoopValue (loopValue : Option String) : Except TemplateFault String :=
  match loopValue with
  | none => .error (.fluxboxRender "prefix expression appeared outside its loop")
  | some value => .ok value

def Helper.render (monitorCount : Int) (loopValue : Option String) :
    Helper → Except TemplateFault String
  | .reconfigure =>
    .ok "Exec fluxbox-reconfigure && notify-send -t 3000 'Reloaded fluxbox config'"
  | .layout => .ok "Exec ly --debug && notify-send -t 3000 'Applied auto-layout'"
  | .focusActive => .ok (MonitorController.focusActive 300 false)
  | .monitorsConnected => .ok (toString monitorCount)
  | .loopValue => requiredLoopValue loopValue
  | .forKeyMode => do
    let value ← requiredLoopValue loopValue
    .ok (if value = "" then "" else " for KeyMode " ++ value)
  | .notify message => .ok (notifyCommand message 3000 none "")
  | .keymode mode body => .ok (keymodeCommand mode body)
  | .keymodeDone mode => .ok (keymodeDoneCommand mode)
  | .notifyTransient message mode => .ok (notifyCommand message 3000 (some mode) "")
  | .delay action milliseconds => .ok (delayCommand action milliseconds)
  | .delayNotify message milliseconds =>
    .ok (delayCommand (notifyCommand message 3000 none "") milliseconds)
  | .nextUnhidden selector focus prev native =>
    .ok (nextUnhiddenCommand selector focus prev native)

def evaluate (expression : String) (monitorCount : Int) (loopValue : Option String) :
    Except TemplateFault String := do
  let helper ← readHelper expression
  helper.render monitorCount loopValue

end Render

section Structure

/-- A character by which a shell reads more than one plain command. -/
def shellMetacharacter (c : Char) : Bool := c ∈ ['|', '<', '>', '&', ';', '$', '\x60', '(', ')']

/-- The parentheses of a window pattern are read by the window manager. -/
def patternMetacharacter (c : Char) : Bool := shellMetacharacter c && c ≠ '(' && c ≠ ')'

def Helper.metacharacter : Helper → Char → Bool
  | .nextUnhidden .. => patternMetacharacter
  | _ => shellMetacharacter

/-- The metacharacters outside quotes of the fixed text of a helper. -/
def Helper.skeleton : Helper → List Char
  | .reconfigure | .layout => ['&', '&']
  | .keymode .. | .notifyTransient .. => ['>']
  | .keymodeDone _ => ['$', '(', ')']
  | _ => []

/-- Balanced braces, and outside quotes the metacharacters which are expected. -/
structure Structured (metacharacter : Char → Bool) (skeleton text : List Char) : Prop where
  balanced : braceDepth 0 text = some 0
  metacharacters : (bareText none text).filter metacharacter = skeleton

/-- No argument which is not quoted has a metacharacter. -/
def Helper.PlainArguments (loopValue : Option String) : Helper → Prop
  | .keymode mode _ => ∀ c ∈ mode.toList, shellMetacharacter c = false
  | .delay action _ => ∀ c ∈ action.toList, shellMetacharacter c = false
  | .nextUnhidden selector focus _ native => focus = false ∨ native = true →
      ∀ c ∈ selector.toList, patternMetacharacter c = false
  | .loopValue | .forKeyMode => ∀ value ∈ loopValue, Structured shellMetacharacter [] value.toList
  | _ => True

end Structure

section Arguments

/-- An argument without unsafe characters. -/
def HelperText (value : String) : Prop := ∀ c ∈ value.toList, unsafeHelperCharacter c = false

/-- A name of plain characters, or none. -/
def ModeName (value : String) : Prop := ∀ c ∈ value.toList, modeCharacter c = true

/-- The arguments of a helper are those its filters let through. -/
def Helper.Validated : Helper → Prop
  | .notify message | .delayNotify message _ => HelperText message
  | .keymode mode body => HelperText mode ∧ HelperText body
  | .keymodeDone mode => ModeName mode
  | .notifyTransient message mode => HelperText message ∧ ModeName mode
  | .delay action _ => HelperText action
  | .nextUnhidden selector .. => HelperText selector
  | _ => True

theorem validateHelperText_ok {value context text : String}
    (h : validateHelperText value context = .ok text) : HelperText text := by
  unfold validateHelperText at h
  split at h
  · cases h
  · rename_i hsafe
    obtain rfl := Except.ok.inj h
    simpa [HelperText] using hsafe

theorem validateModeName_ok {value context text : String}
    (h : validateModeName value context = .ok text) : ModeName text := by
  unfold validateModeName at h
  split at h
  · cases h
  · rename_i hplain
    obtain rfl := Except.ok.inj h
    intro c hc
    rw [not_and, Bool.not_eq_false] at hplain
    refine List.all_eq_true.mp (hplain ?_) c hc
    rintro rfl
    cases hc

/-- A call which is read has passed its filters. -/
theorem readCall_validated {text : List Char} {helper : Helper}
    (h : readCall text = .ok (some helper)) : helper.Validated := by
  unfold readCall at h
  split at h
  · obtain ⟨message, hmessage, h⟩ := Outcome.bind_eq_ok.mp h
    cases h
    exact validateHelperText_ok hmessage
  split at h
  · obtain ⟨mode, hmode, h⟩ := Outcome.bind_eq_ok.mp h
    obtain ⟨body, hbody, h⟩ := Outcome.bind_eq_ok.mp h
    cases h
    exact ⟨validateHelperText_ok hmode, validateHelperText_ok hbody⟩
  split at h
  · obtain ⟨mode, hmode, h⟩ := Outcome.bind_eq_ok.mp h
    split at h
    · cases h
    · cases h
      exact validateModeName_ok hmode
  split at h
  · obtain ⟨message, hmessage, h⟩ := Outcome.bind_eq_ok.mp h
    obtain ⟨mode, hmode, h⟩ := Outcome.bind_eq_ok.mp h
    cases h
    exact ⟨validateHelperText_ok hmessage, validateModeName_ok hmode⟩
  split at h
  · obtain ⟨action, haction, h⟩ := Outcome.bind_eq_ok.mp h
    obtain ⟨milliseconds, -, h⟩ := Outcome.bind_eq_ok.mp h
    cases h
    exact validateHelperText_ok haction
  split at h
  · obtain ⟨message, hmessage, h⟩ := Outcome.bind_eq_ok.mp h
    obtain ⟨milliseconds, -, h⟩ := Outcome.bind_eq_ok.mp h
    cases h
    exact validateHelperText_ok hmessage
  split at h
  · obtain ⟨selector, hselector, h⟩ := Outcome.bind_eq_ok.mp h
    obtain ⟨options, -, h⟩ := Outcome.bind_eq_ok.mp h
    cases h
    exact validateHelperText_ok hselector
  · cases h

theorem readHelper_validated {expression : String} {helper : Helper}
    (h : readHelper expression = .ok helper) : helper.Validated := by
  unfold readHelper at h
  split at h
  · cases h
    trivial
  split at h
  · cases h
    trivial
  split at h
  · cases h
    trivial
  split at h
  · cases h
    trivial
  split at h
  · cases h
    trivial
  split at h
  · cases h
    trivial
  · obtain ⟨called, hcalled, h⟩ := Outcome.bind_eq_ok.mp h
    split at h
    · cases h
      exact readCall_validated hcalled
    · cases h

theorem HelperText.unquoted {value : String} (h : HelperText value) : Unquoted value.toList := by
  intro c hc
  have hsafe := h c hc
  refine ⟨?_, ?_, ?_⟩
  · by_contra hquote
    rw [Bool.not_eq_false] at hquote
    have hc : c = '\x27' ∨ c = '\x22' := by simpa [isQuote] using hquote
    rcases hc with rfl | rfl <;> revert hsafe <;> decide
  · rintro rfl
    revert hsafe
    decide
  · rintro rfl
    revert hsafe
    decide

/-- What can stand anywhere in a command without being read as more than itself. -/
structure Plain (a : List Char) : Prop where
  unquoted : Unquoted a
  metacharacters : a.filter shellMetacharacter = []

def specialCharacters : List Char :=
  ['\x27', '\x22', '{', '}', '|', '<', '>', '&', ';', '$', '\x60', '(', ')']

theorem Plain.of_forall {a : List Char} {p : Char → Bool} (h : ∀ c ∈ a, p c = true)
    (hspecial : specialCharacters.any p = false) : Plain a := by
  have hplain : ∀ c ∈ a, c ∉ specialCharacters := by
    intro c hc hcon
    exact List.any_eq_false.mp hspecial c hcon (h c hc)
  simp only [specialCharacters, List.mem_cons, List.not_mem_nil, or_false, not_or] at hplain
  constructor
  · intro c hc
    have hc := hplain c hc
    simp [isQuote, hc]
  · rw [List.filter_eq_nil_iff]
    intro c hc
    have hc := hplain c hc
    simp [shellMetacharacter, hc]

theorem ModeName.plain {value : String} (h : ModeName value) : Plain value.toList :=
  .of_forall h (by decide)

theorem plain_toDigits (n : Nat) : Plain (Nat.toDigits 10 n) := by
  apply Plain.of_forall (p := Char.isDigit)
  · exact fun c => Nat.isDigit_of_mem_toDigits (by decide) (by decide)
  · decide

theorem plain_toString (n : Int) : Plain (toString n).toList := by
  have hdigits : ∀ m : Nat, ∀ c ∈ Nat.toDigits 10 m, (c.isDigit || c = '-') = true := by
    intro m c hc
    rw [Nat.isDigit_of_mem_toDigits (by decide) (by decide) hc]
    rfl
  apply Plain.of_forall (p := fun c => c.isDigit || c = '-')
  · intro c hc
    cases n with
    | ofNat m =>
      have hrepr : (toString (Int.ofNat m)).toList = Nat.toDigits 10 m := Nat.toList_repr
      exact hdigits m c (hrepr ▸ hc)
    | negSucc m =>
      have hc' : c = '-' ∨ c ∈ Nat.toDigits 10 (m + 1) := by simpa [Int.repr] using hc
      rcases hc' with rfl | hc'
      · decide
      · exact hdigits _ c hc'
  · decide

end Arguments

section Commands

variable {message mode body : String} {rest : List Char}

theorem bareText_notifyCommand (hmessage : HelperText message) (hbody : HelperText body)
    (timeout : Nat) :
    (bareText none ((notifyCommand message timeout none body).toList ++ rest)).filter
      shellMetacharacter = (bareText none rest).filter shellMetacharacter := by
  have hnumber := plain_toDigits timeout
  unfold notifyCommand identifierOption
  simp [bareText, isQuote, hnumber.unquoted.bareText, hnumber.metacharacters,
    hmessage.unquoted.quoted, hbody.unquoted.quoted, shellMetacharacter]

theorem bareText_notifyMode (hmessage : Unquoted message.toList) (hmode : Unquoted mode.toList)
    (hbody : HelperText body) (timeout : Nat) :
    (bareText none ((notifyCommand message timeout (some mode) body).toList ++ rest)).filter
      shellMetacharacter = '>' :: (mode.toList.filter shellMetacharacter ++
        (bareText none rest).filter shellMetacharacter) := by
  have hnumber := plain_toDigits timeout
  unfold notifyCommand identifierOption
  simp [bareText, isQuote, hnumber.unquoted.bareText, hnumber.metacharacters,
    hmessage.quoted, hbody.unquoted.quoted, hmode.bareText, shellMetacharacter]

theorem braceDepth_notifyCommand (hmessage : Unquoted message.toList) (hbody : HelperText body)
    {mode : Option String} (hmode : ∀ m ∈ mode, Unquoted m.toList) (timeout n : Nat) :
    braceDepth n ((notifyCommand message timeout mode body).toList ++ rest) =
      braceDepth n rest := by
  have hnumber := plain_toDigits timeout
  cases mode with
  | none =>
    unfold notifyCommand identifierOption
    simp [braceDepth, hnumber.unquoted.braceDepth, hmessage.braceDepth,
      hbody.unquoted.braceDepth]
  | some m =>
    have hm := hmode m rfl
    unfold notifyCommand identifierOption
    simp [braceDepth, hnumber.unquoted.braceDepth, hmessage.braceDepth,
      hbody.unquoted.braceDepth, hm.braceDepth]

theorem structured_iff {p : Char → Bool} {skeleton text : List Char}
    (h : braceDepth 0 text = some 0) :
    Structured p skeleton text ↔ (bareText none text).filter p = skeleton :=
  ⟨fun hs => hs.metacharacters, fun hm => ⟨h, hm⟩⟩

theorem filter_nil_iff {p : Char → Bool} {a : List Char} :
    a.filter p = [] ↔ ∀ c ∈ a, p c = false := by
  simp [List.filter_eq_nil_iff]

theorem unquoted_between {before after : String} (hbefore : Unquoted before.toList)
    (h : Unquoted mode.toList) (hafter : Unquoted after.toList) :
    Unquoted (before ++ mode ++ after).toList := by
  simp only [String.toList_append]
  exact (hbefore.append h).append hafter

theorem keymode_structured (hmode : HelperText mode) (hbody : HelperText body) :
    Structured shellMetacharacter ['>'] (keymodeCommand mode body).toList ↔
      ∀ c ∈ mode.toList, shellMetacharacter c = false := by
  have hm := hmode.unquoted
  have hmessage : Unquoted ("fluxbox " ++ mode ++ " mode").toList :=
    unquoted_between (by decide) hm (by decide)
  have hnotify : ∀ rest, braceDepth 1 ((notifyCommand ("fluxbox " ++ mode ++ " mode") 999999
      (some mode) body).toList ++ rest) = braceDepth 1 rest := fun rest =>
    braceDepth_notifyCommand hmessage hbody (by simpa using hm) 999999 1
  have hbare : ∀ rest, (bareText none ((notifyCommand ("fluxbox " ++ mode ++ " mode") 999999
      (some mode) body).toList ++ rest)).filter shellMetacharacter =
        '>' :: (mode.toList.filter shellMetacharacter ++
          (bareText none rest).filter shellMetacharacter) := fun rest =>
    bareText_notifyMode hmessage hm hbody 999999
  have hbraces : braceDepth 0 (keymodeCommand mode body).toList = some 0 := by
    unfold keymodeCommand
    simp [braceDepth, hm.braceDepth, hnotify]
  have hfilter : (bareText none (keymodeCommand mode body).toList).filter shellMetacharacter =
      mode.toList.filter shellMetacharacter ++ '>' :: mode.toList.filter shellMetacharacter := by
    unfold keymodeCommand
    simp [bareText, isQuote, hm.bareText, shellMetacharacter, hbare]
  rw [structured_iff hbraces, hfilter, ← filter_nil_iff]
  -- the mode stands outside quotes twice
  cases hmeta : mode.toList.filter shellMetacharacter with
  | nil => simp
  | cons c l => simp

theorem keymodeDone_structured (hmode : ModeName mode) :
    Structured shellMetacharacter ['$', '(', ')'] (keymodeDoneCommand mode).toList := by
  obtain ⟨hm, hmeta⟩ := hmode.plain
  have hnumber := plain_toDigits 3000
  constructor
  · unfold keymodeDoneCommand notifyReplace
    simp [braceDepth, hm.braceDepth, hnumber.unquoted.braceDepth]
  · unfold keymodeDoneCommand notifyReplace
    simp [bareText, isQuote, hm.bareText, hm.quoted, hmeta, hnumber.unquoted.bareText,
      hnumber.metacharacters, shellMetacharacter]

theorem notify_structured (hmessage : HelperText message) (timeout : Nat) :
    Structured shellMetacharacter [] (notifyCommand message timeout none "").toList := by
  have hbody : HelperText "" := by simp [HelperText]
  have hbraces : braceDepth 0 ((notifyCommand message timeout none "").toList ++ []) = some 0 :=
    braceDepth_notifyCommand hmessage.unquoted hbody (by simp) timeout 0
  have hbare : (bareText none ((notifyCommand message timeout none "").toList ++ [])).filter
      shellMetacharacter = [] := bareText_notifyCommand hmessage hbody timeout
  rw [List.append_nil] at hbraces hbare
  exact ⟨hbraces, hbare⟩

theorem notifyMode_structured (hmessage : HelperText message) (hmode : ModeName mode)
    (timeout : Nat) :
    Structured shellMetacharacter ['>'] (notifyCommand message timeout (some mode) "").toList := by
  obtain ⟨hm, hmeta⟩ := hmode.plain
  have hbody : HelperText "" := by simp [HelperText]
  have hbraces : braceDepth 0 ((notifyCommand message timeout (some mode) "").toList ++ []) =
      some 0 := braceDepth_notifyCommand hmessage.unquoted hbody (by simpa using hm) timeout 0
  have hbare : (bareText none ((notifyCommand message timeout (some mode) "").toList ++ [])).filter
      shellMetacharacter = '>' :: (mode.toList.filter shellMetacharacter ++ []) :=
    bareText_notifyMode hmessage.unquoted hm hbody timeout
  rw [List.append_nil] at hbraces hbare
  rw [hmeta] at hbare
  exact ⟨hbraces, hbare⟩

theorem delay_structured {action : String} (haction : HelperText action) (milliseconds : Nat) :
    Structured shellMetacharacter [] (delayCommand action milliseconds).toList ↔
      ∀ c ∈ action.toList, shellMetacharacter c = false := by
  have ha := haction.unquoted
  have hnumber := plain_toDigits (milliseconds * 1000)
  have hend := hnumber.unquoted.braceDepth 0 []
  have hlast := hnumber.unquoted.bareText []
  rw [List.append_nil] at hend hlast
  have hbraces : braceDepth 0 (delayCommand action milliseconds).toList = some 0 := by
    unfold delayCommand
    simp [braceDepth, ha.braceDepth, hend]
  have hfilter : (bareText none (delayCommand action milliseconds).toList).filter
      shellMetacharacter = action.toList.filter shellMetacharacter := by
    unfold delayCommand
    simp [bareText, isQuote, ha.bareText, hlast, hnumber.metacharacters, shellMetacharacter]
  rw [structured_iff hbraces, hfilter, filter_nil_iff]

theorem delayNotify_structured (hmessage : HelperText message) (milliseconds : Nat) :
    Structured shellMetacharacter []
      (delayCommand (notifyCommand message 3000 none "") milliseconds).toList := by
  have hbody : HelperText "" := by simp [HelperText]
  have hnumber := plain_toDigits (milliseconds * 1000)
  have hend := hnumber.unquoted.braceDepth 0 []
  have hlast := hnumber.unquoted.bareText []
  rw [List.append_nil] at hend hlast
  have hnotify : ∀ rest, braceDepth 1 ((notifyCommand message 3000 none "").toList ++ rest) =
      braceDepth 1 rest := fun rest =>
    braceDepth_notifyCommand hmessage.unquoted hbody (by simp) 3000 1
  have hbare : ∀ rest, (bareText none ((notifyCommand message 3000 none "").toList ++ rest)).filter
      shellMetacharacter = (bareText none rest).filter shellMetacharacter := fun rest =>
    bareText_notifyCommand hmessage hbody 3000
  constructor
  · unfold delayCommand
    simp [braceDepth, hnotify, hend]
  · unfold delayCommand
    simp [bareText, isQuote, hbare, hlast, hnumber.metacharacters, shellMetacharacter]

/-- The pattern of a window is quoted unless it is given to the window manager directly. -/
theorem nextUnhidden_structured {selector : String} (hselector : HelperText selector)
    (focus prev native : Bool) :
    Structured patternMetacharacter [] (nextUnhiddenCommand selector focus prev native).toList ↔
      (focus = false ∨ native = true → ∀ c ∈ selector.toList, patternMetacharacter c = false) := by
  have hs := hselector.unquoted
  have hnumber := plain_toDigits (300 * 1000)
  have hdigits : (Nat.toDigits 10 (300 * 1000)).filter patternMetacharacter = [] := by
    decide +kernel
  have hbraces : braceDepth 0 (nextUnhiddenCommand selector focus prev native).toList = some 0 := by
    unfold nextUnhiddenCommand focusActive
    cases focus <;> cases native <;> cases prev <;>
      simp [braceDepth, hs.braceDepth, hnumber.unquoted.braceDepth]
  have hfilter : (bareText none (nextUnhiddenCommand selector focus prev native).toList).filter
      patternMetacharacter = if focus = false ∨ native = true then
        selector.toList.filter patternMetacharacter else [] := by
    unfold nextUnhiddenCommand focusActive
    cases focus <;> cases native <;> cases prev <;>
      simp [bareText, isQuote, hs.bareText, hs.quoted, hnumber.unquoted.bareText, hdigits,
        patternMetacharacter, shellMetacharacter]
  rw [structured_iff hbraces, hfilter]
  split
  · rename_i hbare
    rw [filter_nil_iff]
    exact ⟨fun h _ => h, fun h => h hbare⟩
  · rename_i hquoted
    exact ⟨fun _ h => absurd h hquoted, fun _ => rfl⟩

end Commands

section Result

variable {helper : Helper} {loopValue : Option String} {monitorCount : Int} {text : String}

theorem forKeyMode_structured {value : String} :
    Structured shellMetacharacter [] (if value = "" then "" else " for KeyMode " ++ value).toList ↔
      Structured shellMetacharacter [] value.toList := by
  by_cases hvalue : value = ""
  · rw [if_pos hvalue, hvalue]
  · rw [if_neg hvalue]
    constructor
    · rintro ⟨hbraces, hmeta⟩
      refine ⟨?_, ?_⟩
      · simpa [braceDepth] using hbraces
      · simpa [bareText, isQuote, shellMetacharacter] using hmeta
    · rintro ⟨hbraces, hmeta⟩
      refine ⟨?_, ?_⟩
      · simpa [braceDepth] using hbraces
      · simpa [bareText, isQuote, shellMetacharacter] using hmeta

/-- A validated call is rendered with the structure of its helper if its bare arguments are plain. -/
theorem render_structured (hvalid : helper.Validated)
    (h : helper.render monitorCount loopValue = .ok text) :
    Structured helper.metacharacter helper.skeleton text.toList ↔
      helper.PlainArguments loopValue := by
  have hloop : ∀ value, requiredLoopValue loopValue = .ok value → loopValue = some value := by
    intro value hvalue
    unfold requiredLoopValue at hvalue
    split at hvalue
    · cases hvalue
    · rw [Except.ok.inj hvalue]
  unfold Helper.render at h
  cases helper with
  | reconfigure =>
    obtain rfl := Except.ok.inj h
    exact iff_of_true ⟨by decide +kernel, by decide +kernel⟩ trivial
  | layout =>
    obtain rfl := Except.ok.inj h
    exact iff_of_true ⟨by decide +kernel, by decide +kernel⟩ trivial
  | focusActive =>
    obtain rfl := Except.ok.inj h
    exact iff_of_true ⟨by decide +kernel, by decide +kernel⟩ trivial
  | monitorsConnected =>
    obtain rfl := Except.ok.inj h
    obtain ⟨hunquoted, hmeta⟩ := plain_toString monitorCount
    have hbraces := hunquoted.braceDepth 0 []
    have hbare := hunquoted.bareText []
    rw [List.append_nil] at hbraces hbare
    have hnil : bareText none [] = [] := rfl
    rw [hnil, List.append_nil] at hbare
    exact iff_of_true ⟨hbraces, hbare.symm ▸ hmeta⟩ trivial
  | loopValue =>
    have hvalue := hloop text h
    simp [Helper.PlainArguments, hvalue, Helper.metacharacter, Helper.skeleton]
  | forKeyMode =>
    obtain ⟨value, hvalue, h⟩ := Outcome.bind_eq_ok.mp h
    obtain rfl := Except.ok.inj h
    have hvalue := hloop value hvalue
    rw [Helper.PlainArguments, hvalue]
    simpa [Helper.metacharacter, Helper.skeleton] using forKeyMode_structured
  | notify message =>
    obtain rfl := Except.ok.inj h
    exact iff_of_true (notify_structured hvalid 3000) trivial
  | keymode mode body =>
    obtain rfl := Except.ok.inj h
    exact keymode_structured hvalid.1 hvalid.2
  | keymodeDone mode =>
    obtain rfl := Except.ok.inj h
    exact iff_of_true (keymodeDone_structured hvalid) trivial
  | notifyTransient message mode =>
    obtain rfl := Except.ok.inj h
    exact iff_of_true (notifyMode_structured hvalid.1 hvalid.2 3000) trivial
  | delay action milliseconds =>
    obtain rfl := Except.ok.inj h
    exact delay_structured hvalid milliseconds
  | delayNotify message milliseconds =>
    obtain rfl := Except.ok.inj h
    exact iff_of_true (delayNotify_structured hvalid milliseconds) trivial
  | nextUnhidden selector focus prev native =>
    obtain rfl := Except.ok.inj h
    exact nextUnhidden_structured hvalid focus prev native

/-- An accepted expression keeps its command exactly if what it puts outside quotes is plain. -/
theorem template_arguments_contained (expression : String) (monitorCount : Int)
    (loopValue : Option String) (helper : Helper) (text : String)
    (hread : readHelper expression = .ok helper)
    (h : evaluate expression monitorCount loopValue = .ok text) :
    Structured helper.metacharacter helper.skeleton text.toList ↔
      helper.PlainArguments loopValue := by
  obtain ⟨called, hcalled, h⟩ := Outcome.bind_eq_ok.mp h
  obtain rfl : helper = called := Except.ok.inj (hread.symm.trans hcalled)
  exact render_structured (readHelper_validated hread) h

theorem template_arguments_contained_delay :
    ∃ text, evaluate "delay('Exec xterm', 500)" 2 none = .ok text ∧
      (Structured shellMetacharacter [] text.toList ↔
        ∀ c ∈ "Exec xterm".toList, shellMetacharacter c = false) := by
  have hread : readHelper "delay('Exec xterm', 500)" = .ok (.delay "Exec xterm" 500) := by
    decide +kernel
  have h : evaluate "delay('Exec xterm', 500)" 2 none =
      .ok (delayCommand "Exec xterm" 500) := by
    decide +kernel
  exact ⟨_, h, template_arguments_contained _ 2 none _ _ hread h⟩

/-- A mode with a bar in its name is accepted and splits the command. -/
theorem template_mode_chains :
    readHelper "keymode 'a|b'" = .ok (.keymode "a|b" "") ∧
      ∃ text, evaluate "keymode 'a|b'" 2 none = .ok text ∧
        (bareText none text.toList).filter shellMetacharacter = ['|', '>', '|'] ∧
        ¬ Structured shellMetacharacter (Helper.keymode "a|b" "").skeleton text.toList := by
  have h : evaluate "keymode 'a|b'" 2 none = .ok (keymodeCommand "a|b" "") := by
    decide +kernel
  have hmeta : (bareText none (keymodeCommand "a|b" "").toList).filter shellMetacharacter =
      ['|', '>', '|'] := by
    decide +kernel
  refine ⟨by decide +kernel, _, h, hmeta, fun hs => ?_⟩
  have hskeleton := hmeta.symm.trans hs.metacharacters
  revert hskeleton
  decide

end Result

end MonitorController
