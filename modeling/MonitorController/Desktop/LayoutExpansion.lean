import MonitorController.Desktop.LayoutPlaceholders

/-! # Placeholder expansion

Replacing the placeholders one after the other is replacing all at once, unless
a text that is put in completes the key of a later turn. The guard against
unknown placeholders reads the replaced text, so that it also stops at those
which are completed by a text.
-/

namespace MonitorController

open Placeholders Words

section Search

variable {t name : List Char}

def nameCharacter (c : Char) : Bool := asciiAlnum c || c = '_'

theorem wellFormedName_chars (h : wellFormedName name) : name.all nameCharacter := by
  cases name with
  | nil => cases h
  | cons c name =>
    rw [wellFormedName, Bool.and_eq_true] at h
    rw [List.all_cons, Bool.and_eq_true]
    refine ⟨?_, h.2⟩
    have hletter := h.1
    unfold nameCharacter asciiAlnum
    unfold asciiLetter at hletter
    grind

theorem nameCharacter_plain {c : Char} (h : nameCharacter c) : c ≠ '<' ∧ c ≠ '>' := by
  constructor <;> rintro rfl <;> cases h

theorem wellFormedName_plain (h : wellFormedName name) : angle.Plain name := fun c hc =>
  nameCharacter_plain (List.all_eq_true.mp (wellFormedName_chars h) c hc)

theorem takeWhile_name (h : wellFormedName name) (rest : List Char) :
    (name ++ '>' :: rest).takeWhile nameCharacter = name := by
  rw [List.takeWhile_append_of_pos (List.all_eq_true.mp (wellFormedName_chars h))]
  exact List.append_nil name

theorem searchPlaceholder_cons (c : Char) (t : List Char) : searchPlaceholder (c :: t) =
    if c = '<' ∧ wellFormedName (t.takeWhile nameCharacter) ∧
      (t.drop (t.takeWhile nameCharacter).length).head? = some '>' then
      some (t.takeWhile nameCharacter)
    else searchPlaceholder t := rfl

theorem searchPlaceholder_some (h : searchPlaceholder t = some name) :
    wellFormedName name ∧ angle.wrap name <:+: t := by
  induction t with
  | nil => cases h
  | cons c t ih =>
    rw [searchPlaceholder_cons] at h
    split at h
    · rename_i hfound
      obtain rfl := Option.some.inj h
      refine ⟨hfound.2.1, ?_⟩
      obtain ⟨rest, hrest⟩ := List.head?_eq_some_iff.mp hfound.2.2
      have htext : t = t.takeWhile nameCharacter ++ '>' :: rest := by
        rw [← hrest]
        exact (List.prefix_iff_eq_append.mp (List.takeWhile_prefix nameCharacter)).symm
      refine List.IsPrefix.isInfix ⟨rest, ?_⟩
      rw [hfound.1]
      conv_rhs => rw [htext]
      simp [Brackets.wrap, angle]
    · obtain ⟨hname, hwithin⟩ := ih h
      exact ⟨hname, hwithin.trans (List.suffix_cons c t).isInfix⟩

theorem searchPlaceholder_isSome (h : wellFormedName name) (hwithin : angle.wrap name <:+: t) :
    (searchPlaceholder t).isSome := by
  obtain ⟨pre, post, rfl⟩ := hwithin
  induction pre with
  | nil =>
    have htext : [] ++ angle.wrap name ++ post = '<' :: (name ++ '>' :: post) := by
      simp [Brackets.wrap, angle]
    rw [htext, searchPlaceholder_cons, takeWhile_name h, if_pos]
    · rfl
    · exact ⟨rfl, h, by rw [List.drop_left]; rfl⟩
  | cons c pre ih =>
    rw [List.cons_append, List.cons_append, searchPlaceholder_cons]
    split
    · rfl
    · exact ih

theorem searchPlaceholder_isSome_iff : (searchPlaceholder t).isSome ↔
    ∃ name ∈ angle.names none t, wellFormedName name := by
  constructor
  · intro h
    obtain ⟨name, hname⟩ := Option.isSome_iff_exists.mp h
    obtain ⟨hname, hwithin⟩ := searchPlaceholder_some hname
    exact ⟨name, (Brackets.mem_names_iff (wellFormedName_plain hname)).mpr hwithin, hname⟩
  · rintro ⟨name, hmem, hname⟩
    exact searchPlaceholder_isSome hname
      ((Brackets.mem_names_iff (wellFormedName_plain hname)).mp hmem)

end Search

section Exact

variable {screens : List ResolvedScreen} {replacements : Dict String String} {value : String}

/-- The text in which all placeholders of the table are replaced at once. -/
def simultaneousText (value : String) (replacements : Dict String String) : String :=
  String.ofList (replaceAll (orderedTable replacements) value.toList)

/-- The text has a well-formed placeholder which the table does not know. -/
def HasUnknown (value : String) (replacements : Dict String String) : Prop :=
  ∃ name, wellFormedName name ∧ angle.wrap name <:+: value.toList ∧
    String.ofList (angle.wrap name) ∉ replacements.keys

/-- A text that is put in completes a well-formed placeholder with brackets around it. -/
def CompletesPlaceholder (value : String) (replacements : Dict String String) : Prop :=
  ∃ name ∈ angle.completed (angle.lookup (orderedTable replacements)) none none value.toList,
    wellFormedName name

/-- A text that is put in completes a key whose turn comes later. -/
def CompletesKey (value : String) (replacements : Dict String String) : Prop :=
  ¬ angle.NoneCompleted (orderedTable replacements) value.toList

def unknownPlaceholder (name : List Char) : LayoutFault :=
  .layoutPlanning ("unknown layout placeholder: <" ++ String.ofList name ++ ">")

def boundedText (result : String) : Except LayoutFault String := do
  boundedScalar result "expanded Fluxbox scalar"
  .ok result

theorem bracketed_orderedTable (h : PlaceholderTable screens replacements)
    (hknown : KnownParameters screens)
    (hplain : ∀ v ∈ replacements.values, angle.Plain v.toList) :
    ∀ e ∈ orderedTable replacements, angle.Bracketed e := by
  intro e he
  obtain ⟨d, hd, rfl⟩ := mem_orderedTable.mp he
  exact h.bracketed hknown hplain hd

theorem boundedText_ne_unknown (result : String) (name : List Char) :
    boundedText result ≠ .error (unknownPlaceholder name) := by
  unfold boundedText boundedScalar
  split
  · intro h
    have htext := LayoutFault.layoutPlanning.inj (Except.error.inj h)
    have hhead := congrArg (fun s : String => s.toList.head?) htext
    simp at hhead
  · exact fun h => nomatch h

/-- Expansion fails at an unknown placeholder exactly if one is left. -/
theorem expandPlaceholders_unknown_iff :
    (∃ name, wellFormedName name ∧
      expandPlaceholders value replacements = .error (unknownPlaceholder name)) ↔
    ∃ name ∈ angle.names none (replacedText value replacements).toList, wellFormedName name := by
  rw [← searchPlaceholder_isSome_iff]
  unfold expandPlaceholders
  dsimp only
  cases hsearch : searchPlaceholder (replacedText value replacements).toList with
  | some name => exact ⟨fun _ => rfl, fun _ => ⟨name, (searchPlaceholder_some hsearch).1, rfl⟩⟩
  | none =>
    constructor
    · rintro ⟨name, -, h⟩
      exact absurd h (boundedText_ne_unknown _ name)
    · exact fun h => nomatch h

theorem expandPlaceholders_of_none
    (h : ¬ ∃ name ∈ angle.names none (replacedText value replacements).toList,
      wellFormedName name) :
    expandPlaceholders value replacements = boundedText (replacedText value replacements) := by
  rw [← searchPlaceholder_isSome_iff, Option.not_isSome_iff_eq_none] at h
  unfold expandPlaceholders
  dsimp only
  rw [h]
  rfl

theorem HasUnknown.left (hbracketed : ∀ e ∈ orderedTable replacements, angle.Bracketed e)
    (h : HasUnknown value replacements) :
    ∃ name ∈ angle.names none (replacedText value replacements).toList, wellFormedName name := by
  obtain ⟨name, hname, hwithin, hkey⟩ := h
  refine ⟨name, ?_, hname⟩
  rw [replacedText_toList, ← List.count_pos_iff]
  have hmem := (Brackets.mem_names_iff (wellFormedName_plain hname)).mpr hwithin
  have hkept := Brackets.le_count_names_replaceEach hbracketed
    (mt mem_keys_orderedTable.mp hkey) value.toList
  exact (List.count_pos_iff.mpr hmem).trans_le hkept

theorem names_simultaneousText
    (hbracketed : ∀ e ∈ orderedTable replacements, angle.Bracketed e) :
    (∃ name ∈ angle.names none (simultaneousText value replacements).toList,
      wellFormedName name) ↔
    HasUnknown value replacements ∨ CompletesPlaceholder value replacements := by
  rw [simultaneousText, String.toList_ofList]
  simp only [(Brackets.names_replaceAll hbracketed value.toList).mem_iff, List.mem_append]
  constructor
  · rintro ⟨name, hmem | hmem, hname⟩
    · obtain ⟨hmem, hkey⟩ := List.mem_filter.mp hmem
      rw [Option.isNone_iff_eq_none] at hkey
      have hwithin := (Brackets.mem_names_iff (wellFormedName_plain hname)).mp hmem
      exact .inl ⟨name, hname, hwithin,
        mt mem_keys_orderedTable.mpr (Brackets.lookup_eq_none.mp hkey)⟩
    · exact .inr ⟨name, hmem, hname⟩
  · rintro (⟨name, hname, hwithin, hkey⟩ | ⟨name, hmem, hname⟩)
    · have hmem := (Brackets.mem_names_iff (wellFormedName_plain hname)).mpr hwithin
      refine ⟨name, .inl (List.mem_filter.mpr ⟨hmem, ?_⟩), hname⟩
      rw [Option.isNone_iff_eq_none, Brackets.lookup_eq_none]
      exact mt mem_keys_orderedTable.mp hkey
    · exact ⟨name, .inr hmem, hname⟩

/-- The loop replaces all placeholders at once unless one completes the key of a later turn. -/
theorem replacedText_eq_iff
    (hbracketed : ∀ e ∈ orderedTable replacements, angle.Bracketed e)
    (hnodup : ((orderedTable replacements).map (·.1)).Nodup) :
    replacedText value replacements = simultaneousText value replacements ↔
      ¬ CompletesKey value replacements := by
  rw [CompletesKey, not_not, ← String.toList_inj, replacedText_toList, simultaneousText,
    String.toList_ofList]
  obtain ⟨hnone, heq⟩ | ⟨hsome, hlt⟩ :=
    Brackets.replaceEach_cases hbracketed hnodup value.toList
  · exact iff_of_true heq hnone
  · refine iff_of_false (fun heq => ?_) hsome
    rw [heq] at hlt
    exact absurd hlt (lt_irrefl _)

/-- Expansion is simultaneous substitution unless a text that is put in completes the key of a later
turn. A placeholder which the table does not know stops it, and so does one that is completed by a
text. -/
theorem expandPlaceholders_exact (h : PlaceholderTable screens replacements)
    (hknown : KnownParameters screens)
    (hplain : ∀ v ∈ replacements.values, angle.Plain v.toList) (value : String) :
    (HasUnknown value replacements → ∃ name, wellFormedName name ∧
      expandPlaceholders value replacements = .error (unknownPlaceholder name)) ∧
    (replacedText value replacements = simultaneousText value replacements ↔
      ¬ CompletesKey value replacements) ∧
    (¬ CompletesKey value replacements →
      ((∃ name, wellFormedName name ∧
          expandPlaceholders value replacements = .error (unknownPlaceholder name)) ↔
        HasUnknown value replacements ∨ CompletesPlaceholder value replacements) ∧
      (¬ HasUnknown value replacements → ¬ CompletesPlaceholder value replacements →
        expandPlaceholders value replacements =
          boundedText (simultaneousText value replacements))) := by
  have hbracketed := bracketed_orderedTable h hknown hplain
  have hsame := @replacedText_eq_iff _ value hbracketed (nodup_orderedTable h.nodup)
  refine ⟨fun hunknown => expandPlaceholders_unknown_iff.mpr (hunknown.left hbracketed), hsame,
    fun hnone => ⟨?_, fun hunknown hcompletes => ?_⟩⟩
  · rw [expandPlaceholders_unknown_iff, hsame.mpr hnone]
    exact names_simultaneousText hbracketed
  · rw [expandPlaceholders_of_none, hsame.mpr hnone]
    rw [hsame.mpr hnone, names_simultaneousText hbracketed]
    exact fun hleft => hleft.elim hunknown hcompletes

/-- The texts of a screen have no brackets. -/
structure ResolvedScreen.PlainTexts (screen : ResolvedScreen) : Prop where
  parameters : ∀ p ∈ screen.sourceParameters, angle.Plain p.2.toList
  assignment : angle.Plain screen.assignment.toList
  name : angle.Plain screen.name.toList
  output : angle.Plain screen.output.toList

theorem setHead_plain (screen : ResolvedScreen) : angle.Plain (setHead screen).toList :=
  append_plain.mpr ⟨by decide, digits_plain _⟩

theorem rendered_plain {name text : String} (h : angle.Plain text.toList) :
    angle.Plain (rendered name text).toList := by
  unfold rendered
  split
  · exact append_plain.mpr ⟨h, by decide⟩
  · exact append_plain.mpr ⟨h, by decide⟩

section Plain

variable {screen : ResolvedScreen} {e : String × String}

theorem screenTexts_plain (h : screen.PlainTexts) (he : e ∈ screenTexts screen) :
    angle.Plain e.2.toList := by
  obtain he | he := Dict.mem_of_mem_update he
  · obtain he | he := Dict.mem_of_mem_update he
    · cases he
    · exact h.parameters e he
  · obtain ⟨p, -, rfl⟩ := List.mem_map.mp he
    exact integer_plain p.2

theorem textFields_plain (h : screen.PlainTexts) (he : e ∈ textFields screen) :
    angle.Plain e.2.toList := by
  obtain he | he := Dict.mem_of_mem_update he
  · exact screenTexts_plain h he
  · simp only [List.mem_cons, List.not_mem_nil, or_false] at he
    obtain he | he | he | he := he <;> rw [he]
    · exact setHead_plain screen
    · exact h.assignment
    · exact h.name
    · exact h.output

theorem currentTexts_plain (h : screen.PlainTexts) (he : e ∈ currentTexts screen) :
    angle.Plain e.2.toList := by
  unfold currentTexts at he
  obtain he | he := Dict.mem_of_mem_insert he
  · exact screenTexts_plain h he
  · rw [he]
    exact setHead_plain screen

theorem PlaceholderTable.values_plain (h : PlaceholderTable screens replacements)
    (hscreens : ∀ screen ∈ screens, screen.PlainTexts) :
    ∀ v ∈ replacements.values, angle.Plain v.toList := by
  intro v hv
  obtain ⟨e, he, rfl⟩ := List.mem_map.mp hv
  cases h.source he with
  | common _ hplain => exact hplain
  | numbered screen hscreen hmem =>
    obtain ⟨p, hp, rfl⟩ := mem_placeholdersOf.mp hmem
    exact rendered_plain (textFields_plain (hscreens screen hscreen) hp)
  | assigned screen hscreen hmem =>
    obtain ⟨p, hp, rfl⟩ := mem_placeholdersOf.mp hmem
    exact rendered_plain (textFields_plain (hscreens screen hscreen) hp)
  | current screen hscreen hmem =>
    obtain ⟨p, hp, rfl⟩ := mem_placeholdersOf.mp hmem
    exact rendered_plain (currentTexts_plain (hscreens screen hscreen) hp)

end Plain

theorem exists_placeholderValues (h : ∃ screen ∈ screens, screen.assignment = "primary") :
    ∃ base, placeholderValues screens = .ok base := by
  obtain ⟨screen, hscreen, hprimary⟩ := h
  unfold placeholderValues
  dsimp only
  cases hfound : screens.find? (·.assignment = "primary") with
  | none => exact absurd (decide_eq_true hprimary) (List.find?_eq_none.mp hfound screen hscreen)
  | some primary =>
    dsimp only
    cases placeRightHandSide primary screens with
    | none => exact ⟨_, rfl⟩
    | some command => exact ⟨_, rfl⟩

/-- The table of a laptop's only screen. -/
theorem exists_laptopTable {layout : LayoutScreen}
    (hruns : (resolveScreen defaultContext layout laptopScreen 0 "primary").toOption.map
      (fun s => (s.sourceParameters, s.assignment, s.name, s.output)) =
        some (layout.parameters, "primary", "laptop", "eDP-1"))
    (hknown : ∀ p ∈ layout.parameters, p.1 ∈ screenFields)
    (hplain : ∀ p ∈ layout.parameters, angle.Plain p.2.toList) : ∃ screen replacements,
    resolveScreen defaultContext layout laptopScreen 0 "primary" = .ok screen ∧
    placeholderValues [screen] = .ok replacements ∧ KnownParameters [screen] ∧
    (∀ v ∈ replacements.values, angle.Plain v.toList) ∧ screen.assignment = "primary" := by
  obtain ⟨screen, hscreen, hvalues⟩ := Outcome.eq_ok_of_toOption hruns
  simp only [Prod.mk.injEq] at hvalues
  obtain ⟨hparameters, hassignment, hname, houtput⟩ := hvalues
  obtain ⟨base, hbase⟩ := exists_placeholderValues
    ⟨screen, List.mem_singleton_self screen, hassignment⟩
  have htable : PlaceholderTable [screen] base := ⟨base, hbase, .inl rfl⟩
  refine ⟨screen, base, hscreen, hbase, ?_, htable.values_plain ?_, hassignment⟩
  · intro s hs p hp
    rw [List.mem_singleton.mp hs, hparameters] at hp
    exact hknown p hp
  · intro s hs
    rw [List.mem_singleton.mp hs]
    constructor
    · rw [hparameters]
      exact hplain
    · rw [hassignment]
      decide
    · rw [hname]
      decide
    · rw [houtput]
      decide

theorem PlaceholderTable.initial (h : PlaceholderTable screens replacements)
    {e : String × String} (he : e ∈ replacements) :
    ∃ c ∈ ['s', 'u', 'p'], ['<', c] <+: e.1.toList := by
  cases h.source he with
  | common hcommon _ =>
    have hall : commonPlaceholders.all (fun key =>
        ['s', 'u', 'p'].any fun c => ['<', c].isPrefixOf key.toList) = true := by
      decide
    obtain ⟨c, hc, hkey⟩ := List.any_eq_true.mp (List.all_eq_true.mp hall e.1 hcommon)
    exact ⟨c, hc, List.isPrefixOf_iff_prefix.mp hkey⟩
  | numbered screen hscreen hmem =>
    obtain ⟨p, -, rfl⟩ := mem_placeholdersOf.mp hmem
    exact ⟨'s', by decide, by simp⟩
  | assigned screen hscreen hmem =>
    obtain ⟨p, -, rfl⟩ := mem_placeholdersOf.mp hmem
    exact ⟨'s', by decide, by simp⟩
  | current screen hscreen hmem =>
    obtain ⟨p, -, rfl⟩ := mem_placeholdersOf.mp hmem
    exact ⟨'s', by decide, by simp⟩

theorem PlaceholderTable.notMem_of_initial (h : PlaceholderTable screens replacements)
    {name : List Char} (hname : name.head? = some 'a') :
    String.ofList (angle.wrap name) ∉ replacements.keys := by
  intro hmem
  obtain ⟨e, he, hkey⟩ := List.mem_map.mp hmem
  obtain ⟨c, hc, hstart⟩ := h.initial he
  obtain ⟨rest, rfl⟩ := List.head?_eq_some_iff.mp hname
  rw [hkey, String.toList_ofList, Brackets.wrap, List.cons_append, List.cons_prefix_cons,
    List.cons_prefix_cons] at hstart
  obtain ⟨-, rfl, -⟩ := hstart
  revert hc
  decide

theorem lookup_of_mem {table : List (List Char × List Char)} {w v : List Char}
    (hnodup : (table.map (·.1)).Nodup) (h : (angle.wrap w, v) ∈ table) :
    angle.lookup table w = some v := by
  unfold Brackets.lookup
  rw [find?_of_unique h (decide_eq_true rfl)]
  · rfl
  · intro d hd hkey
    exact List.inj_on_of_nodup_map hnodup hd h (of_decide_eq_true hkey)

theorem PlaceholderTable.assignment_mem (h : PlaceholderTable screens replacements)
    (hknown : KnownParameters screens) {screen : ResolvedScreen} (hscreen : screen ∈ screens)
    (hprimary : screen.assignment = "primary") :
    (angle.wrap "s_primary_assignment".toList, "primary".toList) ∈ orderedTable replacements := by
  obtain ⟨e, he, hkey⟩ := List.mem_map.mp (h.mem_assignmentKey hscreen)
  have hvalue := (h.source he).eq_assignment hknown hkey
  refine mem_orderedTable.mpr ⟨e, he, ?_⟩
  rw [hkey, hvalue, hprimary]
  rfl

theorem expandPlaceholders_exact_laptop : ∃ screen replacements,
    resolveScreen defaultContext threeColumns laptopScreen 0 "primary" = .ok screen ∧
    placeholderValues [screen] = .ok replacements ∧
    (∃ name, wellFormedName name ∧
      expandPlaceholders "<absent>" replacements = .error (unknownPlaceholder name)) ∧
    expandPlaceholders "on <s_primary_assignment>" replacements = .ok "on primary" := by
  have hruns : (resolveScreen defaultContext threeColumns laptopScreen 0 "primary").toOption.map
      (fun s => (s.sourceParameters, s.assignment, s.name, s.output)) =
        some (threeColumns.parameters, "primary", "laptop", "eDP-1") := by decide +kernel
  have hfields : ∀ p ∈ threeColumns.parameters, p.1 ∈ screenFields := by
    decide +kernel
  have htexts : ∀ p ∈ threeColumns.parameters, angle.Plain p.2.toList := by
    decide +kernel
  obtain ⟨screen, replacements, hscreen, hbase, hknown, hplain, hprimary⟩ :=
    exists_laptopTable hruns hfields htexts
  have htable : PlaceholderTable [screen] replacements := ⟨replacements, hbase, .inl rfl⟩
  have hexact := expandPlaceholders_exact htable hknown hplain
  have hassignment := htable.assignment_mem hknown (List.mem_singleton_self screen) hprimary
  refine ⟨screen, replacements, hscreen, hbase, (hexact "<absent>").1 ?_, ?_⟩
  · exact ⟨"absent".toList, by decide, by decide, htable.notMem_of_initial rfl⟩
  · -- The text has one placeholder, around which none is open.
    have hcompleted : ∀ table, angle.completed (angle.lookup table) none none
        "on <s_primary_assignment>".toList = [] := fun _ => rfl
    have hkeys : ¬ CompletesKey "on <s_primary_assignment>" replacements := by
      rw [CompletesKey, not_not]
      intro before e after _ w hw
      rw [hcompleted] at hw
      cases hw
    have hunknown : ¬ HasUnknown "on <s_primary_assignment>" replacements := by
      rintro ⟨name, hname, hwithin, habsent⟩
      have hmem := (Brackets.mem_names_iff (wellFormedName_plain hname)).mpr hwithin
      obtain rfl : name = "s_primary_assignment".toList := List.mem_singleton.mp hmem
      exact habsent (mem_keys_orderedTable.mp (List.mem_map.mpr ⟨_, hassignment, rfl⟩))
    have hplaceholders : ¬ CompletesPlaceholder "on <s_primary_assignment>" replacements := by
      rintro ⟨name, hmem, -⟩
      rw [hcompleted] at hmem
      cases hmem
    have htext : simultaneousText "on <s_primary_assignment>" replacements = "on primary" := by
      have hlookup := lookup_of_mem (nodup_orderedTable htable.nodup) hassignment
      rw [simultaneousText,
        Brackets.replaceAll_eq_subst (bracketed_orderedTable htable hknown hplain)]
      change String.ofList ("on ".toList ++
        (angle.value (angle.lookup (orderedTable replacements)) "s_primary_assignment".toList ++
          [])) = _
      rw [Brackets.value, hlookup]
      rfl
    rw [((hexact _).2.2 hkeys).2 hunknown hplaceholders, htext]
    decide

theorem mem_before_of_longer {before after : List (List Char × List Char)}
    {d e : List Char × List Char} (h : orderedTable replacements = before ++ e :: after)
    (hd : d ∈ orderedTable replacements) (hlonger : e.1.length < d.1.length) : d ∈ before := by
  have hsorted : (orderedTable replacements).Pairwise fun a b => b.1.length ≤ a.1.length := by
    unfold orderedTable replacementOrder
    rw [List.pairwise_map]
    refine (sortedBy_sorted replacements).imp fun {a b} hle => ?_
    obtain hlt | ⟨heq, -⟩ := Prod.Lex.toLex_le_toLex.mp hle
    · have hlength : -(a.1.length : Int) < -(b.1.length : Int) := hlt
      rw [String.length_toList, String.length_toList]
      omega
    · have hlength : -(a.1.length : Int) = -(b.1.length : Int) := heq
      rw [String.length_toList, String.length_toList]
      omega
  rw [h] at hd hsorted
  obtain hd | hd := List.mem_append.mp hd
  · exact hd
  · exfalso
    obtain rfl | hd := List.mem_cons.mp hd
    · omega
    · have hle := List.rel_of_pairwise_cons (List.pairwise_append.mp hsorted).2.1 hd
      omega

theorem PlaceholderTable.num_mem (h : PlaceholderTable screens replacements)
    {screen : ResolvedScreen} (hscreen : screen ∈ screens)
    (hprimary : screen.assignment = "primary") :
    ∃ v, (angle.wrap "s_primary_num".toList, v) ∈ orderedTable replacements := by
  have hfield : "num" ∈ (textFields screen).keys := by
    refine Dict.mem_keys_update.mpr (.inl (Dict.mem_keys_update.mpr (.inr ?_)))
    rw [List.map_map]
    exact List.mem_map.mpr ⟨("num", screen.geometry.num), by simp [Geometry.named], rfl⟩
  obtain ⟨p, hp, hname⟩ := List.mem_map.mp hfield
  have hmem : ("<" ++ ("s_" ++ screen.assignment ++ "_") ++ p.1 ++ ">", rendered p.1 p.2) ∈
      screenPlaceholders screen :=
    List.mem_append_right _ (mem_placeholdersOf.mpr ⟨p, hp, rfl⟩)
  have hkeys : "<" ++ ("s_" ++ screen.assignment ++ "_") ++ p.1 ++ ">" ∈ replacements.keys := by
    obtain ⟨base, hbase, h | ⟨current, -, h⟩⟩ := h
    · rw [h]
      exact mem_keys_placeholderValues hbase hscreen hmem
    · rw [h]
      exact Dict.mem_keys_update.mpr (.inl (mem_keys_placeholderValues hbase hscreen hmem))
  obtain ⟨e, he, hkey⟩ := List.mem_map.mp hkeys
  refine ⟨e.2.toList, mem_orderedTable.mpr ⟨e, he, ?_⟩⟩
  rw [hkey, hname, hprimary]
  rfl

/-- A text that is put in completes an unknown placeholder, at which expansion stops, or a known one
whose turn comes later, which is then replaced as well. -/
theorem expandPlaceholders_completed : ∃ screen replacements,
    resolveScreen defaultContext plainLayout laptopScreen 0 "primary" = .ok screen ∧
    PlaceholderTable [screen] replacements ∧
    (∀ v ∈ replacements.values, angle.Plain v.toList) ∧
    (¬ HasUnknown "<a<s_primary_assignment>>" replacements ∧ ∃ name, wellFormedName name ∧
      expandPlaceholders "<a<s_primary_assignment>>" replacements =
        .error (unknownPlaceholder name)) ∧
    replacedText "<s_<s_primary_assignment>_num>" replacements ≠
      simultaneousText "<s_<s_primary_assignment>_num>" replacements := by
  obtain ⟨screen, replacements, hscreen, hbase, hknown, hplain, hprimary⟩ :=
    @exists_laptopTable plainLayout (by decide +kernel) (fun _ h => nomatch h) fun _ h => nomatch h
  have htable : PlaceholderTable [screen] replacements := ⟨replacements, hbase, .inl rfl⟩
  have hbracketed := bracketed_orderedTable htable hknown hplain
  have hnodup := nodup_orderedTable htable.nodup
  have hassignment := htable.assignment_mem hknown (List.mem_singleton_self screen) hprimary
  have hlookup := lookup_of_mem hnodup hassignment
  -- What the text of the assignment completes, for a part of the table which has it or has not.
  have hcompletes : ∀ table, angle.completed (angle.lookup table) none none
      "<a<s_primary_assignment>>".toList =
        ((angle.lookup table "s_primary_assignment".toList).map ("a".toList ++ ·)).toList := by
    intro table
    change ((angle.lookup table "s_primary_assignment".toList).bind
      fun v => some ("a".toList ++ v)).toList ++ [] = _
    rw [List.append_nil, Option.map_eq_bind]
    rfl
  refine ⟨screen, replacements, hscreen, htable, hplain, ⟨?_, ?_⟩, ?_⟩
  · rintro ⟨name, hname, hwithin, hkey⟩
    have hmem := (Brackets.mem_names_iff (wellFormedName_plain hname)).mpr hwithin
    obtain rfl : name = "s_primary_assignment".toList := List.mem_singleton.mp hmem
    exact hkey (mem_keys_orderedTable.mp (List.mem_map.mpr ⟨_, hassignment, rfl⟩))
  · have hnone : ¬ CompletesKey "<a<s_primary_assignment>>" replacements := by
      rw [CompletesKey, not_not]
      intro before e after hsplit w hw hkey
      rw [hcompletes] at hw
      obtain ⟨v, -, rfl⟩ := Option.map_eq_some_iff.mp (Option.mem_toList.mp hw)
      refine @PlaceholderTable.notMem_of_initial _ _ htable ("a".toList ++ v) rfl
        (mem_keys_orderedTable.mp ?_)
      exact List.mem_map.mpr ⟨e, by simp [hsplit], hkey⟩
    rw [expandPlaceholders_unknown_iff, (replacedText_eq_iff hbracketed hnodup).mpr hnone,
      names_simultaneousText hbracketed]
    refine .inr ⟨"aprimary".toList, ?_, by decide⟩
    rw [hcompletes, hlookup]
    exact List.mem_singleton_self _
  · rw [ne_eq, replacedText_eq_iff hbracketed hnodup, not_not]
    intro hnone
    obtain ⟨v, hv⟩ := htable.num_mem (List.mem_singleton_self screen) hprimary
    obtain ⟨before, after, hsplit⟩ := List.append_of_mem hv
    -- The assignment is replaced first and completes the key of the number.
    have hbefore := mem_before_of_longer hsplit hassignment (by simp [Brackets.wrap])
    have hfirst : angle.lookup before "s_primary_assignment".toList = some "primary".toList := by
      refine lookup_of_mem ?_ hbefore
      rw [hsplit, List.map_append] at hnodup
      exact (List.nodup_append.mp hnodup).1
    refine hnone before _ after hsplit "s_primary_num".toList ?_ rfl
    change _ ∈ angle.completed (angle.lookup before)
      ((angle.lookup before "s_primary_assignment".toList).bind fun v => some ("s_".toList ++ v))
      none "_num>".toList
    rw [hfirst]
    exact List.mem_singleton_self _

end Exact

end MonitorController
