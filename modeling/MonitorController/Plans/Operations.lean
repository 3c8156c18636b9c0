import MonitorController.Plans.Protocol

/-! # The operations of the plan store keep its protocol

A read of a directory either finds the files which were published or the
directory has lost its name meanwhile, for good. So a failing check tells that
the name is gone, and a discard or a late publication which fails leaves nothing
published behind.
-/

namespace MonitorController

open Programs Interleaving Protocol

variable {Plan : Type} {codec : PlanCodec Plan} {Proc : Type} {a : ActionId} {p : Proc}

namespace PlanAccess

def reading : PlanAccess codec → Bool
  | .readMarker | .openPublished | .stat _ | .readPlan _ | .readArtifact _ _ | .listFiles _
  | .readHash _ | .listDirectory _ | .artifactPaths _ | .removeDirectory _ => true
  | _ => false

def publishes : PlanAccess codec → Bool
  | .publish _ _ => true
  | _ => false

def empties : PlanAccess codec → Option Nat
  | .unlinkArtifact d _ | .removeArtifactRoot d | .unlinkPlan d | .unlinkHash d => some d
  | _ => none

end PlanAccess

namespace PlanDirectory

theorem artifact_eq {D : PlanDirectory codec Proc} (hs : D.Sound a) {x y : PlanArtifact}
    (hx : x ∈ D.origin.artifacts) (hy : D.artifact x.relativePath = some y) : y = x := by
  have hmem := hs.artifacts y (List.mem_of_find?_eq_some hy)
  have hpath : y.relativePath = x.relativePath := by simpa using List.find?_some hy
  have hnodup : (D.origin.artifacts.map (·.relativePath)).Nodup :=
    D.origin.ordered.imp fun h hxy => by
      subst hxy
      exact String.lt_irrefl _ h
  exact List.inj_on_of_nodup_map hnodup hmem hx hpath

theorem Intact.artifact {D : PlanDirectory codec Proc} (h : D.Intact) {x : PlanArtifact}
    (hx : x ∈ D.origin.artifacts) : (D.artifact x.relativePath).isSome := by
  unfold PlanDirectory.artifact
  rw [h.artifacts, List.find?_isSome]
  exact ⟨x, hx, by simp⟩

theorem Intact.files {D : PlanDirectory codec Proc} (h : D.Intact) :
    D.files = D.origin.artifacts.map (·.relativePath) ++ ["plan.json", "plan.sha256"] := by
  simp [PlanDirectory.files, h.artifacts, h.plan, h.sha256]

end PlanDirectory

namespace PlanRoot

variable {root root' : PlanRoot codec Proc} {d e n : Nat} {bundle : DesktopPlanBundle codec}
  {planHash : PlanHash}

/-- The directory was published with this bundle and hash. -/
def Origin (d : Nat) (bundle : DesktopPlanBundle codec) (planHash : PlanHash)
    (root : PlanRoot codec Proc) : Prop :=
  ∃ D, root.directory d = some D ∧ D.origin = bundle ∧ D.originHash = planHash

/-- The directory has lost its name. -/
def Gone (d : Nat) (root : PlanRoot codec Proc) : Prop :=
  d < root.published ∧ root.name ≠ some d

/-- Every directory which had been published up to some point has lost its name. -/
def Cleared (n : Nat) (root : PlanRoot codec Proc) : Prop :=
  ∀ d < n, root.Gone d

/-- The directory was published before the marker was written. -/
def Early (d : Nat) (root : PlanRoot codec Proc) : Prop :=
  d < root.published ∧ ∀ k, root.marker = .written k → d < k

/-- What the process itself has published too late has lost its name. -/
def Clean (p : Proc) (root : PlanRoot codec Proc) : Prop :=
  ∀ d, publishedBy p root d → Early d root ∨ Gone d root

theorem Origin.evolves (h : root.Origin d bundle planHash) (hev : root.Evolves root') :
    root'.Origin d bundle planHash := by
  obtain ⟨D, hD, rfl, rfl⟩ := h
  obtain ⟨D', hD', hDD'⟩ := hev.directory d D hD
  exact ⟨D', hD', hDD'.origin, hDD'.originHash⟩

theorem Gone.evolves (h : root.Gone d) (hev : root.Evolves root') : root'.Gone d :=
  ⟨Nat.lt_of_lt_of_le h.1 hev.published, fun hd => h.2 (hev.name d h.1 hd)⟩

theorem Cleared.evolves (h : root.Cleared n) (hev : root.Evolves root') : root'.Cleared n :=
  fun d hd => (h d hd).evolves hev

theorem Cleared.mono {m : Nat} (h : root.Cleared n) (hmn : m ≤ n) : root.Cleared m :=
  fun d hd => h d (Nat.lt_of_lt_of_le hd hmn)

theorem Early.evolves (h : root.Early d) (hev : root.Evolves root') : root'.Early d := by
  refine ⟨Nat.lt_of_lt_of_le h.1 hev.published, fun k hk => ?_⟩
  rcases hev.since k hk with hold | hlate
  · exact h.2 k hold
  · exact Nat.lt_of_lt_of_le h.1 hlate

theorem Clean.later (h : root.Clean p) (hl : (protocol a).Later p root root') :
    root'.Clean p := by
  intro d hd
  have hold : publishedBy p root d := (congrFun hl.own d).mp hd
  rcases h d hold with he | hg
  · exact .inl (he.evolves hl.evolves)
  · exact .inr (hg.evolves hl.evolves)

theorem Origin.intact (h : root.Origin d bundle planHash) (hs : root.Consistent a) :
    ∃ D, root.directory d = some D ∧ D.Sound a ∧ D.origin = bundle ∧ D.originHash = planHash ∧
      (D.Intact ∨ root.Gone d) := by
  obtain ⟨D, hD, hb, hh⟩ := h
  refine ⟨D, hD, hs.sound d D hD, hb, hh, ?_⟩
  by_cases hn : root.name = some d
  · obtain ⟨D', hD', hintact⟩ := hs.named d hn
    obtain rfl : D' = D := Option.some.inj (hD'.symm.trans hD)
    exact .inl hintact
  · exact .inr ⟨hs.lt_published hD, hn⟩

theorem perform_reading {q : PlanAccess codec} (hq : q.reading = true) :
    (root.perform p q).2 = root := by
  cases q with
  | readMarker => rfl
  | openPublished => rfl
  | stat d => rfl
  | readPlan d => rfl
  | readArtifact d path => rfl
  | listFiles d => rfl
  | readHash d => rfl
  | listDirectory d => rfl
  | artifactPaths d => rfl
  | removeDirectory d => rfl
  | _ => cases hq

end PlanRoot

namespace PlanStore

open PlanRoot

variable {root : PlanRoot codec Proc} {n : Nat}

/-- A specified operation of one process. -/
abbrev Does (a : ActionId) (p : Proc) {α : Type} (A : PlanAccess codec → PlanRoot codec Proc → Prop)
    (Q : α → PlanRoot codec Proc → Prop) (E : PlanError → PlanRoot codec Proc → Prop)
    (prog : PlanProgram codec α) (root : PlanRoot codec Proc) : Prop :=
  (protocol a).Meets p (PlanRoot.perform p) ⟨A, Q, E⟩ prog root

/-- The request only reads, from a consistent root. -/
def Reading (a : ActionId) (q : PlanAccess codec) (root : PlanRoot codec Proc) : Prop :=
  q.reading = true ∧ root.Consistent a

section Reading

variable {α : Type} {A B : PlanAccess codec → PlanRoot codec Proc → Prop} {Q : α → PlanRoot codec Proc → Prop} {E : PlanError → PlanRoot codec Proc → Prop}

theorem Does.mono {prog : PlanProgram codec α} {R : α → PlanRoot codec Proc → Prop}
    {F : PlanError → PlanRoot codec Proc → Prop} (h : Does a p A Q E prog root)
    (hAB : ∀ q t, A q t → B q t) (hQR : ∀ x t, Q x t → R x t) (hEF : ∀ e t, E e t → F e t) :
    Does a p B R F prog root :=
  Meets.mono h hAB hQR hEF

theorem Does.read {q : PlanAccess codec} {Q : q.Reply → PlanRoot codec Proc → Prop}
    (hq : q.reading = true)
    (h : ∀ t, (protocol a).Later p root t → ∀ u, (protocol a).Later p t u →
      Q (t.perform p q).1 u) : Does a p (Reading a) Q E (access q) root := by
  refine Meets.ask fun t ht => ⟨⟨hq, ht.inv⟩, ?_, fun u hu => ?_⟩
  · rw [perform_reading hq]
    exact .refl ht.inv
  · rw [perform_reading hq] at hu
    exact h t ht u hu

theorem Does.present {x : Option α}
    (hsome : ∀ v, x = some v → ∀ u, (protocol a).Later p root u → Q v u)
    (hnone : x = none → ∀ u, (protocol a).Later p root u → E .fileNotFound u) :
    Does a p A Q E (PlanStore.present x) root := by
  cases x with
  | none => exact hnone rfl
  | some v => exact hsome v rfl

theorem Does.frame {prog : PlanProgram codec α} {F : PlanRoot codec Proc → Prop}
    (h : Does a p (Reading a) Q E prog root) (hF : F root)
    (hlater : ∀ t u, F t → (protocol a).Later p t u → F u) :
    Does a p (Reading a) (fun x t => Q x t ∧ F t) (fun e t => E e t ∧ F t) prog root :=
  Meets.frame h hF hlater fun _ _ hq hFt => by rwa [perform_reading hq.1]

end Reading

/-- The identity was not revoked when the marker was looked at. -/
def Unrevoked (root t : PlanRoot codec Proc) : Prop :=
  root.marker.isWritten = false ∧ ∀ d < root.published, t.Early d

theorem Unrevoked.evolves {t u : PlanRoot codec Proc} (h : Unrevoked root t) (hev : t.Evolves u) :
    Unrevoked root u :=
  ⟨h.1, fun d hd => (h.2 d hd).evolves hev⟩

theorem unrevoked_of_marker {t : PlanRoot codec Proc} (hev : root.Evolves t)
    (hm : t.marker.isWritten = false) : Unrevoked root t := by
  have hnone : ∀ k, t.marker ≠ .written k := by
    intro k hk
    simp [hk, Marker.isWritten] at hm
  constructor
  · cases hr : root.marker with
    | written k => exact absurd (hev.written k hr) (hnone k)
    | absent => rfl
    | created => rfl
  · intro d hd
    exact ⟨Nat.lt_of_lt_of_le hd hev.published, fun k hk => absurd hk (hnone k)⟩

theorem readMarker_does (hs : root.Consistent a) :
    Does a p (Reading a) (fun _ t => t.marker.isWritten = true) (fun _ t => Unrevoked root t)
      (readMarker a) root := by
  have hread : Does a p (Reading a) (fun m t => (m.isWritten = true → t.marker.isWritten = true) ∧
      (m.isWritten = false → Unrevoked root t)) (fun _ t => Unrevoked root t)
      (access .readMarker) root := by
    refine Does.read rfl fun t ht u hu => ⟨fun hm => ?_, fun hm => ?_⟩
    · change t.marker.isWritten = true at hm
      cases ht' : t.marker with
      | written k => simp [hu.evolves.written k ht', Marker.isWritten]
      | absent => simp [ht', Marker.isWritten] at hm
      | created => simp [ht', Marker.isWritten] at hm
    · exact (unrevoked_of_marker ht.evolves hm).evolves hu.evolves
  unfold readMarker
  refine hread.bind hs fun m t _ _ hm => ?_
  cases m with
  | absent => exact fun u hu => (hm.2 rfl).evolves hu.evolves
  | created => exact fun u hu => (hm.2 rfl).evolves hu.evolves
  | written k =>
    intro u hu
    cases ht : t.marker with
    | written j => simp [hu.evolves.written j ht, Marker.isWritten]
    | absent => simpa [ht, Marker.isWritten] using hm.1 rfl
    | created => simpa [ht, Marker.isWritten] using hm.1 rfl

theorem isRevoked_does (hs : root.Consistent a) :
    Does a p (Reading a)
      (fun b t => (b = true → t.marker.isWritten = true) ∧ (b = false → Unrevoked root t))
      (fun _ t => a.kind = .plan → Unrevoked root t) (isRevoked a) root := by
  unfold isRevoked planAction
  refine Meets.require (fun _ => ?_) fun hkind _ _ ha => absurd ha hkind
  refine Meets.handle (F := fun _ t => Unrevoked root t) ?_ hs fun e t _ _ he => ?_
  · refine (readMarker_does hs).bind hs fun _ t _ _ ht u hu => ⟨fun _ => ?_, by rintro ⟨⟩⟩
    cases hm : t.marker with
    | written k => simp [hu.evolves.written k hm, Marker.isWritten]
    | absent => simp [hm, Marker.isWritten] at ht
    | created => simp [hm, Marker.isWritten] at ht
  · cases e with
    | fileNotFound => exact fun u hu => ⟨by rintro ⟨⟩, fun _ => he.evolves hu.evolves⟩
    | codec message => exact fun u hu _ => he.evolves hu.evolves
    | immutable message => exact fun u hu _ => he.evolves hu.evolves

/-! ### Reading one directory -/

section Directory

variable {d : Nat} {bundle : DesktopPlanBundle codec} {planHash : PlanHash}

/-- A file is read as it was published, unless the directory has lost its name. -/
theorem readFile_does {α : Type} {q : PlanAccess codec} (hq : q.reading = true)
    (hs : root.Consistent a) (ho : root.Origin d bundle planHash) {f : q.Reply → Option α}
    {good : α → Prop}
    (hsome : ∀ (t : PlanRoot codec Proc) (D : PlanDirectory codec Proc) x, t.directory d = some D → D.Sound a → D.origin = bundle →
      D.originHash = planHash → f (t.perform p q).1 = some x → good x)
    (hnone : ∀ (t : PlanRoot codec Proc) (D : PlanDirectory codec Proc), t.directory d = some D → D.origin = bundle → D.originHash = planHash →
      D.Intact → f (t.perform p q).1 ≠ none) :
    Does a p (Reading a) (fun x _ => good x) (fun _ t => t.Gone d)
      (do PlanStore.present (f (← access q))) root := by
  have hread : Does a p (Reading a)
      (fun r t => (∀ x, f r = some x → good x) ∧ (f r = none → t.Gone d)) (fun _ t => t.Gone d)
      (access q) root := by
    refine Does.read hq fun t ht u hu => ⟨fun x hx => ?_, fun hn => ?_⟩
    · obtain ⟨D, hD, hsound, hb, hh, -⟩ := (ho.evolves ht.evolves).intact ht.inv
      exact hsome t D x hD hsound hb hh hx
    · obtain ⟨D, hD, -, hb, hh, hintact | hgone⟩ := (ho.evolves ht.evolves).intact ht.inv
      · exact absurd hn (hnone t D hD hb hh hintact)
      · exact hgone.evolves hu.evolves
  refine hread.bind hs fun r t _ _ hr => ?_
  exact Does.present (fun x hx _ _ => hr.1 x hx) fun hn u hu => (hr.2 hn).evolves hu.evolves

theorem readPlan_does (hs : root.Consistent a) (ho : root.Origin d bundle planHash) :
    Does a p (Reading a) (fun plan _ => plan = bundle.plan) (fun _ t => t.Gone d)
      (do PlanStore.present (← access (.readPlan d))) root := by
  refine readFile_does (q := .readPlan d) (f := fun x => x) rfl hs ho ?_ ?_
  · rintro t D plan hD hsound rfl - hplan
    have hread : ((t.directory d).bind (·.plan)) = some plan := hplan
    rw [hD] at hread
    exact hsound.plan plan hread
  · intro t D hD hb _ hintact hnone
    have hread : ((t.directory d).bind (·.plan)) = none := hnone
    rw [hD, Option.bind_some, hintact.plan] at hread
    cases hread

theorem readHash_does (hs : root.Consistent a) (ho : root.Origin d bundle planHash) :
    Does a p (Reading a) (fun stored t => stored = planHash ∨ t.Gone d) (fun _ t => t.Gone d)
      (do PlanStore.present (← access (.readHash d))) root := by
  have hread : Does a p (Reading a) (fun r t => r = some planHash ∨ t.Gone d)
      (fun _ t => t.Gone d) (access (.readHash d)) root := by
    refine Does.read rfl fun t ht u hu => ?_
    obtain ⟨D, hD, -, -, hh, hintact | hgone⟩ := (ho.evolves ht.evolves).intact ht.inv
    · left
      change (t.directory d).bind (·.sha256) = some planHash
      rw [hD, Option.bind_some, hintact.sha256, hh]
    · exact .inr (hgone.evolves hu.evolves)
  refine hread.bind hs fun r t _ _ hr => ?_
  refine Does.present (fun stored hstored u hu => ?_) fun hn u hu => ?_
  · rcases hr with hr | hgone
    · exact .inl (Option.some.inj (hstored.symm.trans hr))
    · exact .inr (hgone.evolves hu.evolves)
  · rcases hr with hr | hgone
    · rw [hn] at hr
      cases hr
    · exact hgone.evolves hu.evolves

theorem readArtifactAt_does (hs : root.Consistent a) (ho : root.Origin d bundle planHash)
    {x : PlanArtifact} (hx : x ∈ bundle.artifacts) :
    Does a p (Reading a) (fun y _ => y = x) (fun _ t => t.Gone d)
      (readArtifactAt d (codec.entry x)) root := by
  unfold readArtifactAt
  have hread : Does a p (Reading a) (fun content _ => content = x.content) (fun _ t => t.Gone d)
      (do PlanStore.present (← access (.readArtifact d x.relativePath))) root := by
    refine readFile_does (q := .readArtifact d x.relativePath) (f := fun c => c) rfl hs ho ?_ ?_
    · rintro t D content hD hsound rfl - hcontent
      have hfound : ((t.directory d).bind (·.artifact x.relativePath)).map (·.content) =
        some content := hcontent
      rw [hD, Option.bind_some] at hfound
      obtain ⟨y, hy, rfl⟩ := Option.map_eq_some_iff.mp hfound
      rw [PlanDirectory.artifact_eq hsound hx hy]
    · rintro t D hD rfl - hintact hnone
      have hfound : ((t.directory d).bind (·.artifact x.relativePath)).map (·.content) = none :=
        hnone
      rw [hD, Option.bind_some, Option.map_eq_none_iff] at hfound
      have hsome := hintact.artifact hx
      rw [hfound] at hsome
      cases hsome
  refine Meets.bind (Q := fun content _ => content = x.content) hread hs fun content t _ _ hc => ?_
  subst hc
  refine Meets.require (fun _ => ?_) fun hne => absurd rfl hne
  refine Meets.lift (fun y hy _ _ => ?_) fun e he => ?_
  · exact Except.ok.inj (hy.symm.trans x.make_self)
  · exact absurd (he.symm.trans x.make_self) nofun

theorem readArtifactsAt_does {xs : List PlanArtifact} (hs : root.Consistent a)
    (ho : root.Origin d bundle planHash) (hxs : ∀ x ∈ xs, x ∈ bundle.artifacts) :
    Does a p (Reading a) (fun ys _ => ys = xs) (fun _ t => t.Gone d)
      (readArtifactsAt d (xs.map codec.entry)) root := by
  induction xs generalizing root with
  | nil => exact fun _ _ => rfl
  | cons x xs ih =>
    refine (readArtifactAt_does hs ho (hxs x List.mem_cons_self)).bind hs fun y t ht hev hy => ?_
    subst hy
    refine (ih ht (ho.evolves hev) fun z hz => hxs z (List.mem_cons_of_mem _ hz)).bind ht
      fun ys u _ _ hys => ?_
    subst hys
    exact fun _ _ => rfl

theorem stat_does {E : PlanError → PlanRoot codec Proc → Prop}
    (ho : root.Origin d bundle planHash) :
    Does a p (Reading a) (fun changes t => changes = 0 ∨ t.Gone d) E (access (.stat d)) root := by
  refine Does.read rfl fun t ht u hu => ?_
  obtain ⟨D, hD, -, -, -, hintact | hgone⟩ := (ho.evolves ht.evolves).intact ht.inv
  · left
    change ((t.directory d).map (·.changes)).getD 0 = 0
    rw [hD, Option.map_some, Option.getD_some, hintact.changes]
  · exact .inr (hgone.evolves hu.evolves)

theorem listFiles_does {E : PlanError → PlanRoot codec Proc → Prop}
    (ho : root.Origin d bundle planHash) :
    Does a p (Reading a) (fun files t =>
      files = bundle.artifacts.map (·.relativePath) ++ ["plan.json", "plan.sha256"] ∨ t.Gone d)
      E (access (.listFiles d)) root := by
  refine Does.read rfl fun t ht u hu => ?_
  obtain ⟨D, hD, -, hb, -, hintact | hgone⟩ := (ho.evolves ht.evolves).intact ht.inv
  · left
    change ((t.directory d).map (·.files)).getD [] = _
    rw [hD, Option.map_some, Option.getD_some, hintact.files, hb]
  · exact .inr (hgone.evolves hu.evolves)

theorem or_gone_evolves {P : Prop} {t u : PlanRoot codec Proc} (h : P ∨ t.Gone d)
    (hev : t.Evolves u) : P ∨ u.Gone d :=
  h.imp_right fun hg => hg.evolves hev

theorem gone_of_not {P : Prop} {t u : PlanRoot codec Proc} (h : P ∨ t.Gone d) (hP : ¬ P)
    (hev : t.Evolves u) : u.Gone d := by
  rcases h with h | hg
  · exact absurd h hP
  · exact hg.evolves hev

/-- What is read from a directory is the bundle which was published in it. -/
theorem readPublishedAt_does (hs : root.Consistent a) (ho : root.Origin d bundle planHash) :
    Does a p (Reading a) (fun x t => x.1 = bundle ∧ (x.2 = 0 ∨ t.Gone d)) (fun _ t => t.Gone d)
      (readPublishedAt d a) root := by
  obtain ⟨D, hD, hsound, hb, hh, -⟩ := ho.intact hs
  have haction : codec.actionId bundle.plan = a := hb ▸ hsound.action
  have hhash : bundle.hash = .ok planHash := by rw [← hb, ← hh]; exact hsound.hash
  have hpaths : (bundle.artifacts.map codec.entry).map (·.relativePath) =
      bundle.artifacts.map (·.relativePath) := by simp [PlanCodec.entry]
  unfold readPublishedAt
  refine (stat_does ho).bind hs fun before t ht hev hbefore => ?_
  have hot := ho.evolves hev
  refine (readPlan_does ht hot).bind ht fun plan u hu hev hplan => ?_
  have hou := hot.evolves hev
  have hbefore := or_gone_evolves hbefore hev
  subst hplan
  refine Meets.require (fun _ => ?_) fun hne => absurd haction hne
  rw [bundle.manifest]
  refine (readArtifactsAt_does hu hou fun x hx => hx).bind hu fun artifacts v hv hev hxs => ?_
  have hov := hou.evolves hev
  have hbefore := or_gone_evolves hbefore hev
  subst hxs
  refine (listFiles_does hov).bind hv fun files w hw hev hfiles => ?_
  have how := hov.evolves hev
  have hbefore := or_gone_evolves hbefore hev
  refine Meets.require (fun _ => ?_) fun hne u hu => gone_of_not hfiles (fun heq => hne ?_) hu.evolves
  · refine Meets.bind (Q := fun b _ => b = bundle)
      (Meets.lift (fun b hb x hx => ?_) fun e he => ?_) hw fun b x hx hev hb => ?_
    · exact Except.ok.inj (hb.symm.trans bundle.make_self)
    · exact absurd (he.symm.trans bundle.make_self) nofun
    have hox := how.evolves hev
    have hbefore := or_gone_evolves hbefore hev
    subst hb
    refine (readHash_does hx hox).bind hx fun stored y hy hev hstored => ?_
    have hoy := hox.evolves hev
    have hbefore := or_gone_evolves hbefore hev
    refine Meets.bind (Q := fun h _ => h = planHash)
      (Meets.lift (fun h hh z hz => ?_) fun e he => ?_) hy fun actual z hz hev hactual => ?_
    · exact Except.ok.inj (hh.symm.trans hhash)
    · exact absurd (he.symm.trans hhash) nofun
    have hbefore := or_gone_evolves hbefore hev
    have hstored := or_gone_evolves hstored hev
    subst hactual
    refine Meets.require (fun _ => ?_) fun hne u hu =>
      gone_of_not hstored (fun heq => hne heq.symm) hu.evolves
    refine (stat_does (hoy.evolves hev)).bind hz fun after w hw hev hafter => ?_
    have hbefore := or_gone_evolves hbefore hev
    refine Meets.require (fun _ u hu => ?_) fun hne u hu => ?_
    · exact ⟨rfl, or_gone_evolves hbefore hu.evolves⟩
    · rcases hbefore with rfl | hg
      · exact gone_of_not hafter (fun heq => hne heq.symm) hu.evolves
      · exact hg.evolves hu.evolves
  · rw [heq, hpaths]

end Directory

theorem opening_does {n : Nat} (hn : n ≤ root.published) :
    Does a p (Reading a)
      (fun d t => (∃ bundle h, t.Origin d bundle h) ∧ ∀ e < n, e ≠ d → t.Gone e)
      (fun _ t => t.Cleared n) (do PlanStore.present (← access .openPublished)) root := by
  intro t ht
  have hgone : ∀ {e : Nat}, e < n → t.name ≠ some e → t.Gone e := fun he hne =>
    ⟨Nat.lt_of_lt_of_le he (Nat.le_trans hn ht.evolves.published), hne⟩
  refine ⟨⟨rfl, ht.inv⟩, .refl ht.inv, ?_⟩
  change Does a p (Reading a) _ _ (PlanStore.present t.name) t
  refine Does.present (fun d hd u hu => ⟨?_, fun e he hed => ?_⟩) fun hnone u hu e he => ?_
  · obtain ⟨D, hD, -⟩ := ht.inv.named d hd
    have ho : t.Origin d D.origin D.originHash := ⟨D, hD, rfl, rfl⟩
    exact ⟨_, _, ho.evolves hu.evolves⟩
  · refine (hgone he fun hname => hed ?_).evolves hu.evolves
    exact Option.some.inj (hname.symm.trans hd)
  · refine (hgone he fun hname => ?_).evolves hu.evolves
    rw [hnone] at hname
    cases hname

/-- What is known once the published plan has been read. -/
structure Read (n : Nat) (x : DesktopPlanBundle codec × Nat × Nat) (root : PlanRoot codec Proc) :
    Prop where
  origin : ∃ h, root.Origin x.2.1 x.1 h
  others : ∀ e < n, e ≠ x.2.1 → root.Gone e
  unchanged : x.2.2 = 0 ∨ root.Gone x.2.1

theorem Read.evolves {n : Nat} {x : DesktopPlanBundle codec × Nat × Nat}
    {t u : PlanRoot codec Proc} (h : Read n x t) (hev : t.Evolves u) : Read n x u where
  origin := by
    obtain ⟨planHash, ho⟩ := h.origin
    exact ⟨planHash, ho.evolves hev⟩
  others e he hne := (h.others e he hne).evolves hev
  unchanged := or_gone_evolves h.unchanged hev

theorem readPublishedWithIdentity_does (ha : a.kind = .plan) (hs : root.Consistent a) :
    Does a p (Reading a) (fun x t => Read root.published x t)
      (fun _ t => t.Cleared root.published) (readPublishedWithIdentity a) root := by
  unfold readPublishedWithIdentity planAction
  refine Meets.require (fun _ => ?_) fun hne => absurd ha hne
  refine (opening_does (Nat.le_refl _)).bind hs fun d t ht hev hd => ?_
  obtain ⟨⟨bundle, planHash, ho⟩, hothers⟩ := hd
  refine Meets.bind (Q := fun x u => x.1 = bundle ∧ (x.2 = 0 ∨ u.Gone d))
    ((readPublishedAt_does ht ho).frame (F := fun u => t.Evolves u) (.refl t)
      (fun _ _ hu hl => hu.trans hl.evolves) |>.mono (fun _ _ hq => hq) (fun _ _ hx => hx.1)
        fun e u he c hc => ?_) ht fun x u hu hev' hx => ?_
  · by_cases hcd : c = d
    · exact hcd ▸ he.1
    · exact (hothers c hc hcd).evolves he.2
  · obtain ⟨b, details⟩ := x
    obtain ⟨rfl, hdetails⟩ := hx
    have hread : Read root.published (b, d, details) u :=
      ⟨⟨planHash, ho.evolves hev'⟩, fun e he hne => (hothers e he hne).evolves hev', hdetails⟩
    exact fun v hv => hread.evolves hv.evolves

/-! ### Discarding -/

section Discarding

variable {d : Nat} {bundle : DesktopPlanBundle codec} {planHash : PlanHash}
  {expected : Option PlanHash}

/-- Every directory which had been published up to some point, unless it has another hash than the
expected one, has lost its name. -/
def Discarded (n : Nat) (expected : Option PlanHash) (root : PlanRoot codec Proc) : Prop :=
  ∀ d < n, root.Gone d ∨ ∃ bundle h x, root.Origin d bundle h ∧ expected = some x ∧ h ≠ x

theorem discarded_of_cleared {t : PlanRoot codec Proc} (h : t.Cleared n) :
    Discarded n expected t :=
  fun d hd => .inl (h d hd)

theorem Discarded.evolves {t u : PlanRoot codec Proc} (h : Discarded n expected t)
    (hev : t.Evolves u) : Discarded n expected u := by
  intro d hd
  rcases h d hd with hg | ⟨bundle, planHash, x, ho, hx⟩
  · exact .inl (hg.evolves hev)
  · exact .inr ⟨bundle, planHash, x, ho.evolves hev, hx⟩

/-- The request publishes nothing, and only a directory of the expected hash is emptied. -/
structure Discarding (a : ActionId) (p : Proc) (expected : Option PlanHash)
    (q : PlanAccess codec) (root : PlanRoot codec Proc) : Prop where
  publishes : q.publishes = false
  later : (protocol a).Later p root (root.perform p q).2
  hash : ∀ d, q.empties = some d → ∀ D, root.directory d = some D →
    ∀ x ∈ expected, D.originHash = x

theorem discarding_of_reading {q : PlanAccess codec} (h : Reading a q root) :
    Discarding a p expected q root := by
  obtain ⟨hq, hs⟩ := h
  refine ⟨?_, ?_, ?_⟩
  · cases q with
    | publish bundle planHash => cases hq
    | _ => rfl
  · rw [perform_reading hq]
    exact .refl hs
  · cases q with
    | unlinkArtifact d path => cases hq
    | removeArtifactRoot d => cases hq
    | unlinkPlan d => cases hq
    | unlinkHash d => cases hq
    | _ => nofun

/-- Without a publication a process knows the same directories as its own. -/
theorem publishedBy_perform {q : PlanAccess codec} (hq : q.publishes = false) :
    publishedBy p (root.perform p q).2 = publishedBy p root := by
  have hset : ∀ {d : Nat} {D E : PlanDirectory codec Proc}, root.directory d = some D →
      E.process = D.process → publishedBy p (root.set d E) = publishedBy p root := by
    intro d D E hD hE
    funext e
    by_cases hed : e = d
    · subst hed
      simp [publishedBy, hD, hE]
    · simp [publishedBy, set_directory_of_ne root hed]
  have hremove : ∀ {d : Nat} {present : PlanDirectory codec Proc → Bool}
      {put : PlanDirectory codec Proc → PlanDirectory codec Proc},
      (∀ D : PlanDirectory codec Proc, (put D).process = D.process) →
        publishedBy p (root.remove d present put).2 = publishedBy p root := by
    intro d present put hput
    unfold PlanRoot.remove
    split
    · rfl
    · rename_i D hD
      split
      · exact hset hD (hput D)
      · rfl
  cases q with
  | createMarker =>
    change publishedBy p root.createMarker.2 = _
    unfold PlanRoot.createMarker
    split <;> rfl
  | writeMarker =>
    change publishedBy p root.writeMarker.2 = _
    unfold PlanRoot.writeMarker
    split <;> rfl
  | publish bundle planHash => cases hq
  | detach =>
    change publishedBy p root.detach.2 = _
    unfold PlanRoot.detach
    split
    · rfl
    · split
      · rfl
      · rename_i d _ _ D hD
        exact hset hD rfl
  | unlinkArtifact d path => exact hremove fun _ => rfl
  | removeArtifactRoot d => exact hremove fun _ => rfl
  | unlinkPlan d => exact hremove fun _ => rfl
  | unlinkHash d => exact hremove fun _ => rfl
  | _ => rfl

/-- To its own process, too, a permitted access which publishes nothing is a step like those of
the others. -/
theorem later_perform (hs : root.Consistent a) {q : PlanAccess codec} (hq : root.Permitted a q)
    (hp : q.publishes = false) : (protocol a).Later p root (root.perform p q).2 :=
  have hg := hs.perform (p := p) hq
  ⟨hg.inv, hg.evolves, publishedBy_perform hp⟩

theorem demand_uses {allowed : PlanAccess codec → Prop} {q : PlanProgram codec Bool}
    {e : PlanError} (h : q.Uses allowed) : (demand q e).Uses allowed :=
  h.bind fun _ => .require ..

theorem removeDirectoryTree_uses :
    (removeDirectoryTree d : PlanProgram codec Unit).Uses fun q =>
      q.reading = true ∨ q.empties = some d := by
  have hentry : ∀ name, (removeEntry d name : PlanProgram codec Unit).Uses fun q =>
      q.reading = true ∨ q.empties = some d := by
    intro name
    unfold removeEntry
    split
    · refine Program.Uses.bind (Program.Uses.ask (.inl rfl)) fun paths => ?_
      refine (Program.Uses.forM fun path _ => ?_).bind fun _ => ?_
      · exact demand_uses (Program.Uses.ask (.inr rfl))
      · exact demand_uses (Program.Uses.ask (.inr rfl))
    · split
      · exact demand_uses (Program.Uses.ask (.inr rfl))
      · exact demand_uses (Program.Uses.ask (.inr rfl))
  refine Program.Uses.bind (Program.Uses.ask (.inl rfl)) fun names => ?_
  refine (Program.Uses.forM fun name _ => hentry name).bind fun _ => ?_
  exact demand_uses (Program.Uses.ask (.inl rfl))

/-- A directory without its name, of the expected hash, may be emptied. -/
theorem removeDirectoryTree_does (hg : root.Gone d) (ho : root.Origin d bundle planHash)
    (hx : ∀ x ∈ expected, planHash = x) {F : PlanRoot codec Proc → Prop} (hF : F root)
    (hlater : ∀ t u, F t → (protocol a).Later p t u → F u) :
    Does a p (Discarding a p expected) (fun _ => F) (fun _ => F) (removeDirectoryTree d) root := by
  refine (Meets.of_uses (F := fun t => F t ∧ t.Gone d ∧ t.Origin d bundle planHash)
    removeDirectoryTree_uses ⟨hF, hg, ho⟩ (fun t u h hl => ?_) fun q t hq ht h => ?_).mono
      (fun _ _ hq => hq) (fun _ _ h => h.1) fun _ _ h => h.1
  · exact ⟨hlater t u h.1 hl, h.2.1.evolves hl.evolves, h.2.2.evolves hl.evolves⟩
  · obtain ⟨hFt, hgt, hot⟩ := h
    have hpublishes : q.publishes = false := by
      rcases hq with hq | hq
      · have hd : Discarding a p none q t := discarding_of_reading ⟨hq, ht⟩
        exact hd.publishes
      · cases q with
        | publish bundle planHash => cases hq
        | _ => rfl
    have hpermitted : t.Permitted a q := by
      cases q with
      | publish bundle planHash => cases hpublishes
      | detach => simp [PlanAccess.reading, PlanAccess.empties] at hq
      | unlinkArtifact e path =>
        obtain rfl : e = d := by simpa [PlanAccess.reading, PlanAccess.empties] using hq
        exact hgt.2
      | removeArtifactRoot e =>
        obtain rfl : e = d := by simpa [PlanAccess.reading, PlanAccess.empties] using hq
        exact hgt.2
      | unlinkPlan e =>
        obtain rfl : e = d := by simpa [PlanAccess.reading, PlanAccess.empties] using hq
        exact hgt.2
      | unlinkHash e =>
        obtain rfl : e = d := by simpa [PlanAccess.reading, PlanAccess.empties] using hq
        exact hgt.2
      | _ => trivial
    have hl := later_perform (p := p) ht hpermitted hpublishes
    refine ⟨⟨hpublishes, hl, fun e he D hD x hxe => ?_⟩, ht.perform hpermitted,
      hlater _ _ hFt hl, hgt.evolves hl.evolves, hot.evolves hl.evolves⟩
    rcases hq with hq | hq
    · exact (discarding_of_reading (p := p) ⟨hq, ht⟩).hash e he D hD x hxe
    · obtain rfl : d = e := Option.some.inj (hq.symm.trans he)
      obtain ⟨E, hE, -, hEhash⟩ := hot
      obtain rfl : E = D := Option.some.inj (hE.symm.trans hD)
      exact hEhash.trans (hx x hxe)

/-- Whatever had the name loses it. -/
theorem detach_does (hm : root.marker.isWritten = true) (hn : n ≤ root.published) :
    Does a p (Discarding a p expected) (fun _ t => t.Cleared n) (fun _ t => t.Cleared n)
      (do PlanStore.present (← access .detach)) root := by
  intro t ht
  have hwritten : t.marker.isWritten = true := by
    cases hr : root.marker with
    | written k => simp [ht.evolves.written k hr, Marker.isWritten]
    | absent => simp [hr, Marker.isWritten] at hm
    | created => simp [hr, Marker.isWritten] at hm
  have hg := ht.inv.perform (p := p) (q := .detach) hwritten
  have hl := later_perform (p := p) (q := .detach) ht.inv hwritten rfl
  have hcleared : (t.perform p .detach).2.Cleared n := by
    intro e he
    have hlt : e < (t.perform p .detach).2.published := Nat.lt_of_lt_of_le he
      (Nat.le_trans hn (Nat.le_trans ht.evolves.published hl.evolves.published))
    refine ⟨hlt, ?_⟩
    change t.detach.2.name ≠ some e
    unfold PlanRoot.detach
    split
    · rename_i hnone
      simp [hnone]
    · rename_i d hd
      obtain ⟨D, hD, -⟩ := ht.inv.named d hd
      simp [hD]
  refine ⟨⟨rfl, hl, by rintro _ ⟨⟩⟩, hg, ?_⟩
  change Does a p _ _ _ (PlanStore.present t.detach.1) _
  exact Does.present (fun _ _ u hu => hcleared.evolves hu.evolves)
    fun _ u hu => hcleared.evolves hu.evolves

/-- After a discard nothing of the expected hash is left that was published before. -/
theorem discardRead_does (hs : root.Consistent a) (hm : root.marker.isWritten = true)
    (hn : n ≤ root.published) {x : DesktopPlanBundle codec × Nat × Nat}
    (hread : Read n x root) :
    Does a p (Discarding a p expected) (fun _ t => t.Cleared n) (fun _ t => Discarded n expected t)
      (discardRead expected x.1 x.2.1 x.2.2) root := by
  obtain ⟨bundle, d, details⟩ := x
  obtain ⟨⟨planHash, ho⟩, hothers, hdetails⟩ := hread
  dsimp only at ho hothers hdetails ⊢
  have hhash : bundle.hash = .ok planHash := by
    obtain ⟨D, hD, hsound, hb, hh, -⟩ := ho.intact hs
    rw [← hb, ← hh]
    exact hsound.hash
  have hwritten : ∀ {t : PlanRoot codec Proc}, root.Evolves t → t.marker.isWritten = true := by
    intro t hev
    cases hr : root.marker with
    | written k => simp [hev.written k hr, Marker.isWritten]
    | absent => simp [hr, Marker.isWritten] at hm
    | created => simp [hr, Marker.isWritten] at hm
  unfold discardRead
  refine Meets.bind (Q := fun h _ => h = planHash)
    (Meets.lift (fun h hh t _ => Except.ok.inj (hh.symm.trans hhash)) fun e he =>
      absurd (he.symm.trans hhash) (by rintro ⟨⟩)) hs fun actual t ht hev hactual => ?_
  subst hactual
  refine Meets.require (fun hx => ?_) fun hne u hu e he => ?_
  · have hopening : Does a p (Discarding a p expected)
        (fun d t => (∃ bundle h, t.Origin d bundle h) ∧ ∀ e < n, e ≠ d → t.Gone e)
        (fun _ t => Discarded n expected t) (do PlanStore.present (← access .openPublished)) t :=
      (opening_does (Nat.le_trans hn hev.published)).mono (fun _ _ => discarding_of_reading)
        (fun _ _ h => h) fun _ _ => discarded_of_cleared
    refine hopening.bind ht fun source u hu hev' hsource => ?_
    obtain ⟨⟨bundle', h', hos⟩, hsothers⟩ := hsource
    have hou := (ho.evolves hev).evolves hev'
    have hevu := hev.trans hev'
    have hstating : Does a p (Discarding a p expected) (fun c t => c = 0 ∨ t.Gone source)
        (fun _ t => Discarded n expected t) (access (.stat source)) u :=
      (stat_does hos).mono (fun _ _ => discarding_of_reading) (fun _ _ h => h) fun _ _ h => h
    refine hstating.bind hu fun sourceDetails v hv hev'' hstat => ?_
    have hevv := hevu.trans hev''
    refine Meets.require (fun hsame => ?_) fun hne w hw e he => .inl ?_
    · obtain ⟨rfl, -⟩ := hsame
      have hlt : source < v.published := by
        obtain ⟨D, hD, -⟩ := hou.evolves hev''
        exact hv.lt_published hD
      have hnv : n ≤ v.published := Nat.le_trans hn hevv.published
      have hdetaching : Does a p (Discarding a p expected) (fun _ t => t.Cleared v.published)
          (fun _ t => Discarded n expected t) (do PlanStore.present (← access .detach)) v :=
        (detach_does (hwritten hevv) (Nat.le_refl _)).mono (fun _ _ h => h) (fun _ _ h => h)
          fun _ _ h => discarded_of_cleared (h.mono hnv)
      refine hdetaching.bind hv fun detached w hw hev₃ hcl => ?_
      refine Meets.require (fun _ => ?_) fun _ x hx =>
        discarded_of_cleared ((hcl.mono hnv).evolves hx.evolves)
      exact (removeDirectoryTree_does (F := fun t => t.Cleared n) (hcl source hlt)
        ((hou.evolves hev'').evolves hev₃) hx (hcl.mono hnv)
          fun _ _ h hl => h.evolves hl.evolves).mono (fun _ _ h => h) (fun _ _ h => h)
            fun _ _ => discarded_of_cleared
    · by_cases hed : e = d
      · subst hed
        by_cases hes : e = source
        · subst hes
          rcases or_gone_evolves hdetails hevv with rfl | hg
          · exact gone_of_not hstat (fun heq => hne ⟨rfl, heq⟩) hw.evolves
          · exact hg.evolves hw.evolves
        · exact ((hsothers e he hes).evolves hev'').evolves hw.evolves
      · exact ((hothers e he hed).evolves hevv).evolves hw.evolves
  · by_cases hed : e = d
    · subst hed
      push Not at hne
      obtain ⟨x, hx, hne⟩ := hne
      exact .inr ⟨bundle, actual, x, (ho.evolves hev).evolves hu.evolves, hx, hne⟩
    · exact .inl (((hothers e he hed).evolves hev).evolves hu.evolves)

theorem written_evolves {t u : PlanRoot codec Proc} (h : t.marker.isWritten = true)
    (hev : t.Evolves u) : u.marker.isWritten = true := by
  cases ht : t.marker with
  | written k => simp [hev.written k ht, Marker.isWritten]
  | absent => simp [ht, Marker.isWritten] at h
  | created => simp [ht, Marker.isWritten] at h

theorem discardPublished_does (ha : a.kind = .plan) (hs : root.Consistent a)
    (hm : root.marker.isWritten = true) :
    Does a p (Discarding a p expected) (fun _ t => t.Cleared root.published)
      (fun _ t => Discarded root.published expected t) (discardPublished a expected) root := by
  unfold discardPublished
  have hfound : Does a p (Reading a)
      (fun x t => (∀ y, x = some y → Read root.published y t) ∧
        (x = none → t.Cleared root.published))
      (fun _ t => t.Cleared root.published) (do return some (← readPublishedWithIdentity a)) root :=
    (readPublishedWithIdentity_does ha hs).bind hs fun x t _ _ hx u hu =>
      ⟨fun y hy => Option.some.inj hy ▸ hx.evolves hu.evolves, by rintro ⟨⟩⟩
  refine ((?_ : Does a p (Reading a)
    (fun x t => (∀ y, x = some y → Read root.published y t) ∧ (x = none → t.Cleared root.published))
    (fun _ t => t.Cleared root.published) _ root).mono (fun _ _ => discarding_of_reading)
      (fun _ _ h => h) fun _ _ => discarded_of_cleared).bind hs fun x t ht hev hx => ?_
  · refine Meets.handle (F := fun _ t => t.Cleared root.published) hfound hs fun e t _ _ he => ?_
    cases e with
    | fileNotFound => exact fun u hu => ⟨by rintro _ ⟨⟩, fun _ => he.evolves hu.evolves⟩
    | codec message => exact fun u hu => he.evolves hu.evolves
    | immutable message => exact fun u hu => he.evolves hu.evolves
  · cases x with
    | none => exact fun u hu => (hx.2 rfl).evolves hu.evolves
    | some x => exact discardRead_does ht (written_evolves hm hev) hev.published (hx.1 x rfl)

/-- A revocation which returns leaves a written marker. -/
theorem revoke_does (hs : root.Consistent a) :
    Does a p (Discarding a p none) (fun _ t => a.kind = .plan ∧ t.marker.isWritten = true)
      (fun _ _ => True) (revoke a) root := by
  unfold revoke planAction
  refine Meets.require (fun ha => ?_) fun _ _ _ => trivial
  have hcreate : Does a p (Discarding a p none)
      (fun b t => b = true → t.marker ≠ .absent) (fun _ _ => True) (access .createMarker) root := by
    refine Meets.ask fun t ht => ⟨⟨rfl, later_perform ht.inv trivial rfl, nofun⟩,
      ht.inv.perform trivial, ?_⟩
    change ∀ u, (protocol a).Later p t.createMarker.2 u → t.createMarker.1 = true → _
    intro u hu hb
    refine hu.evolves.marked ?_
    unfold PlanRoot.createMarker at hb ⊢
    split at hb
    · exact nofun
    · cases hb
  refine hcreate.bind hs fun b t ht _ hb => ?_
  cases b with
  | false =>
    exact ((readMarker_does ht).mono (fun _ _ => discarding_of_reading) (fun _ _ h => ⟨ha, h⟩)
      fun _ _ _ => trivial)
  | true =>
    intro u hu
    have hmarked : u.marker ≠ .absent := hu.evolves.marked (hb rfl)
    refine ⟨⟨rfl, later_perform hu.inv trivial rfl, nofun⟩, hu.inv.perform trivial, ?_⟩
    refine fun v hv => ⟨ha, written_evolves ?_ hv.evolves⟩
    change u.writeMarker.2.marker.isWritten = true
    unfold PlanRoot.writeMarker
    split
    · rfl
    · rename_i hcreated
      cases hm : u.marker with
      | absent => exact absurd hm hmarked
      | created => exact absurd hm hcreated
      | written k => rfl

theorem discard_does (hs : root.Consistent a) :
    Does a p (Discarding a p expected)
      (fun _ t => ∀ k, root.marker = .written k → t.Cleared k)
      (fun _ t => a.kind = .plan → ∀ k, root.marker = .written k → Discarded k expected t)
      (discard a expected) root := by
  unfold discard planAction
  refine Meets.require (fun ha => ?_) fun hkind _ _ ha => absurd ha hkind
  have hunrevoked : ∀ {t : PlanRoot codec Proc}, Unrevoked root t → ∀ k, root.marker ≠ .written k := by
    intro t h k hk
    simp [Unrevoked, hk, Marker.isWritten] at h
  refine ((isRevoked_does hs).mono (fun _ _ => discarding_of_reading) (fun _ _ h => h)
    fun _ _ h hkind k hk => absurd hk (hunrevoked (h hkind) k)).bind hs fun b t ht hev hb => ?_
  refine Meets.require (fun hrevoked => ?_) fun hb' u _ _ k hk => ?_
  · refine (discardPublished_does ha ht (hb.1 hrevoked)).mono (fun _ _ h => h)
      (fun _ u hu k hk => ?_) fun _ u hu _ k hk d hd => hu d ?_
    · exact hu.mono (Nat.le_trans (hs.revoked k hk).1 hev.published)
    · exact Nat.lt_of_lt_of_le hd (Nat.le_trans (hs.revoked k hk).1 hev.published)
  · exact absurd hk (hunrevoked (hb.2 (by simpa using hb')) k)

end Discarding

/-! ### Reading and staging -/

section Staging

variable {bundle : DesktopPlanBundle codec} {planHash : PlanHash}

/-- The bundle was published for the identity. -/
def Published (bundle : DesktopPlanBundle codec) (root : PlanRoot codec Proc) : Prop :=
  ∃ d h, root.Origin d bundle h

theorem Published.evolves {t u : PlanRoot codec Proc} (h : Published bundle t)
    (hev : t.Evolves u) : Published bundle u := by
  obtain ⟨d, planHash, ho⟩ := h
  exact ⟨d, planHash, ho.evolves hev⟩

theorem read_does (hs : root.Consistent a) :
    Does a p (Reading a) (fun b t => Published b t ∧ root.marker.isWritten = false)
      (fun _ _ => True) (read a) root := by
  unfold read
  by_cases ha : a.kind = .plan
  · refine ((isRevoked_does hs).mono (fun _ _ hq => hq) (fun _ _ h => h)
      fun _ _ _ => trivial).bind hs fun b t ht _ hb => ?_
    cases b with
    | true => exact fun _ _ => trivial
    | false =>
      refine ((readPublishedWithIdentity_does ha ht).mono (fun _ _ hq => hq) (fun _ _ h => h)
        fun _ _ _ => trivial).bind ht fun x u _ _ hx v hv => ?_
      obtain ⟨h, ho⟩ := hx.origin
      exact ⟨⟨x.2.1, h, ho.evolves hv.evolves⟩, (hb.2 rfl).1⟩
  · refine Meets.bind (Q := fun _ _ => False) ?_ hs fun _ _ _ _ h => h.elim
    unfold isRevoked planAction
    exact Meets.require (fun hkind => absurd hkind ha) fun _ _ _ => trivial

/-- What the process has published since then: only what is marked as new, and what is old is
clean if it was so at the beginning. -/
def Since (p : Proc) (root : PlanRoot codec Proc) (new : Nat → Prop) (t : PlanRoot codec Proc) :
    Prop :=
  ∀ d, publishedBy p t d → new d ∨
    publishedBy p root d ∧ (root.Clean p → t.Early d ∨ t.Gone d)

theorem Since.later {new : Nat → Prop} {t u : PlanRoot codec Proc} (h : Since p root new t)
    (hl : (protocol a).Later p t u) : Since p root new u := by
  intro d hd
  rcases h d ((congrFun hl.own d).mp hd) with hnew | ⟨hold, hclean⟩
  · exact .inl hnew
  · refine .inr ⟨hold, fun hroot => ?_⟩
    rcases hclean hroot with he | hg
    · exact .inl (he.evolves hl.evolves)
    · exact .inr (hg.evolves hl.evolves)

theorem Since.refl : Since p root (fun _ => False) root :=
  fun d hd => .inr ⟨hd, fun h => h d hd⟩

theorem Since.clean {new : Nat → Prop} {t : PlanRoot codec Proc} (h : Since p root new t)
    (hnew : ∀ d, new d → t.Early d ∨ t.Gone d) (hroot : root.Clean p) : t.Clean p := by
  intro d hd
  rcases h d hd with hn | ⟨-, hclean⟩
  · exact hnew d hn
  · exact hclean hroot

/-- What a stage promises: success means that the bundle was published, that the identity was not
yet revoked at the beginning, and that what the call itself has published came before the
revocation. In any case nothing is left of a late publication. -/
structure Staged (p : Proc) (bundle : DesktopPlanBundle codec) (root t : PlanRoot codec Proc) :
    Prop where
  published : Published bundle t
  unrevoked : root.marker.isWritten = false
  early : ∀ d, publishedBy p t d → publishedBy p root d ∨ t.Early d
  clean : root.Clean p → t.Clean p

theorem staged_of_since {new : Nat → Prop} {t u : PlanRoot codec Proc}
    (hb : Published bundle t) (hm : root.marker.isWritten = false) (h : Since p root new t)
    (hnew : ∀ d, new d → t.Early d) (hl : (protocol a).Later p t u) : Staged p bundle root u where
  published := hb.evolves hl.evolves
  unrevoked := hm
  early d hd := by
    rcases h.later hl d hd with hn | ⟨hold, -⟩
    · exact .inr ((hnew d hn).evolves hl.evolves)
    · exact .inl hold
  clean := (h.later hl).clean fun d hn => .inl ((hnew d hn).evolves hl.evolves)

/-- Nothing is known of the requests of a stage. -/
abbrev Any (_ : PlanAccess codec) (_ : PlanRoot codec Proc) : Prop := True

/-- What is new once the bundle has got the name. -/
theorem publish_does {start : PlanRoot codec Proc} (ha : codec.actionId bundle.plan = a)
    (hh : bundle.hash = .ok planHash) (hsince : Since p start (fun _ => False) root)
    {E : PlanError → PlanRoot codec Proc → Prop} :
    Does a p Any
      (fun b t => (b = true → ∃ d, t.Origin d bundle planHash ∧ Since p start (· = d) t) ∧
        (b = false → Since p start (fun _ => False) t)) E
      (access (.publish bundle planHash)) root := by
  refine Meets.ask fun t ht => ⟨trivial, ht.inv.perform ⟨ha, hh⟩, ?_⟩
  change ∀ u, (protocol a).Later p (t.publish p bundle planHash).2 u →
    ((t.publish p bundle planHash).1 = true → _) ∧ ((t.publish p bundle planHash).1 = false → _)
  have hold := hsince.later ht
  have hev : t.Evolves (t.publish p bundle planHash).2 := (ht.inv.publish ha hh).evolves
  intro u hu
  unfold PlanRoot.publish at hev hu ⊢
  split
  · rename_i d hd
    rw [hd] at hu
    exact ⟨nofun, fun _ => hold.later hu⟩
  · rename_i hd
    rw [hd] at hu hev
    refine ⟨fun _ => ⟨t.published, ?_, ?_⟩, nofun⟩
    · refine Origin.evolves ?_ hu.evolves
      exact ⟨_, Function.update_self .., rfl, rfl⟩
    · refine Since.later ?_ hu
      intro d hd
      by_cases hnew : d = t.published
      · exact .inl hnew
      · obtain ⟨D, hD, hp⟩ := hd
        dsimp only at hD
        rw [Function.update_of_ne hnew] at hD
        rcases hold d ⟨D, hD, hp⟩ with hf | ⟨hstart, hclean⟩
        · exact hf.elim
        · exact .inr ⟨hstart, fun hc =>
            (hclean hc).imp (fun he => he.evolves hev) fun hg => hg.evolves hev⟩

variable [DecidableEq Plan]

theorem stageExisting_does {start : PlanRoot codec Proc} {message : String}
    (hs : root.Consistent a) (hm : start.marker.isWritten = false)
    (hsince : Since p start (fun _ => False) root) :
    Does a p (Reading a) (fun _ t => Staged p bundle start t)
      (fun _ t => start.Clean p → t.Clean p) (stageExisting a bundle planHash message) root := by
  have hclean : ∀ {t u : PlanRoot codec Proc}, Since p start (fun _ => False) t →
      (protocol a).Later p t u → start.Clean p → u.Clean p :=
    fun h hl => (h.later hl).clean fun _ hf => hf.elim
  unfold stageExisting
  refine (((read_does hs).frame hsince fun _ _ h hl => h.later hl).mono (fun _ _ hq => hq)
    (fun _ _ h => h) fun _ _ h => h.2.clean fun _ hf => hf.elim).bind hs fun b t ht _ hb => ?_
  obtain ⟨⟨hpublished, -⟩, hsince⟩ := hb
  refine Meets.require (fun hsame => ?_) fun _ u hu => hclean hsince hu
  subst hsame
  refine Meets.bind (Q := fun _ u => Published b u ∧ Since p start (fun _ => False) u)
    (Meets.lift (fun _ _ u hu => ⟨hpublished.evolves hu.evolves, hsince.later hu⟩)
      fun _ _ u hu => hclean hsince hu) ht fun h u hu _ hb => ?_
  obtain ⟨hpublished, hsince⟩ := hb
  refine Meets.require (fun _ v hv => ?_) fun _ v hv => hclean hsince hv
  exact staged_of_since hpublished hm hsince (fun _ hf => hf.elim) hv

theorem stagePublish_does {start : PlanRoot codec Proc} (hs : root.Consistent a)
    (hkind : a.kind = .plan) (ha : codec.actionId bundle.plan = a)
    (hh : bundle.hash = .ok planHash) (hm : start.marker.isWritten = false)
    (hsince : Since p start (fun _ => False) root) :
    Does a p Any (fun _ t => Staged p bundle start t) (fun _ t => start.Clean p → t.Clean p)
      (stagePublish a bundle planHash) root := by
  unfold stagePublish
  refine (((isRevoked_does hs).frame hsince fun _ _ h hl => h.later hl).mono
    (fun _ _ _ => trivial) (fun _ _ h => h) fun _ _ h => h.2.clean fun _ hf => hf.elim).bind hs
      fun b t ht _ hb => ?_
  obtain ⟨-, hsince⟩ := hb
  cases b with
  | true => exact fun u hu => (hsince.later hu).clean fun _ hf => hf.elim
  | false =>
    refine (publish_does ha hh hsince).bind ht fun b u hu _ hb => ?_
    cases b with
    | false =>
      exact (stageExisting_does hu hm (hb.2 rfl)).mono (fun _ _ _ => trivial) (fun _ _ h => h)
        fun _ _ h => h
    | true =>
      obtain ⟨d, ho, hsince⟩ := hb.1 rfl
      have hlt : d < u.published := by
        obtain ⟨D, hD, -⟩ := ho
        exact hu.lt_published hD
      -- The new directory is early or late, as the marker tells after the publication.
      refine (((isRevoked_does hu).frame hsince fun _ _ h hl => h.later hl).mono
        (fun _ _ _ => trivial) (fun _ _ h => h) fun _ v h =>
          h.2.clean fun _ hd => .inl ((h.1 hkind).2 _ (hd ▸ hlt))).bind hu fun b v hv hev hb => ?_
      obtain ⟨hb, hsince⟩ := hb
      cases b with
      | false =>
        exact fun w hw => staged_of_since ⟨d, planHash, ho.evolves hev⟩ hm hsince
          (fun _ hd => (hb.2 rfl).2 _ (hd ▸ hlt)) hw
      | true =>
        have hov := ho.evolves hev
        have hgone : ∀ {w : PlanRoot codec Proc}, w.Gone d → Since p start (· = d) w →
            start.Clean p → w.Clean p :=
          fun hg h => h.clean fun _ he => .inr (he ▸ hg)
        have hdoes : Does a p (Discarding a p (some planHash)) (fun _ w => w.Cleared v.published)
            (fun _ w => Discarded v.published (some planHash) w)
            (discardPublished a (some planHash)) v := discardPublished_does hkind hv (hb.1 rfl)
        have hdiscard := Meets.frame hdoes (F := fun w => Since p start (· = d) w ∧ v.Evolves w)
          ⟨hsince, .refl v⟩
          (fun _ _ h hl => ⟨h.1.later hl, h.2.trans hl.evolves⟩)
          fun _ _ hq h => ⟨h.1.later hq.later, h.2.trans hq.later.evolves⟩
        have hlost : Does a p Any (fun (_ : Unit) w => start.Clean p → w.Clean p)
            (fun _ w => start.Clean p → w.Clean p) (discardPublished a (some planHash)) v := by
          refine Meets.mono hdiscard (fun _ _ _ => trivial) (fun _ w h => ?_) fun _ w h => ?_
          · exact hgone (h.1 d (hv.lt_published hov.choose_spec.1)) h.2.1
          · obtain ⟨hdiscarded, hsince, hev'⟩ := h
            rcases hdiscarded d (hv.lt_published hov.choose_spec.1) with hg | hother
            · exact hgone hg hsince
            · obtain ⟨b', h', x, ⟨D, hD, -, rfl⟩, hx, hne⟩ := hother
              obtain ⟨E, hE, -, rfl⟩ := hov.evolves hev'
              obtain rfl : D = E := Option.some.inj (hD.symm.trans hE)
              exact absurd (Option.some.inj hx) hne
        refine Meets.bind (Q := fun _ w => start.Clean p → w.Clean p) hlost hv
          fun _ w _ _ hw x hx hc => ?_
        exact (hw hc).later hx

theorem stage_does (hs : root.Consistent a) :
    Does a p Any (fun _ t => Staged p bundle root t) (fun _ t => root.Clean p → t.Clean p)
      (stage a bundle) root := by
  have hclean : ∀ {t u : PlanRoot codec Proc}, Since p root (fun _ => False) t →
      (protocol a).Later p t u → root.Clean p → u.Clean p :=
    fun h hl => (h.later hl).clean fun _ hf => hf.elim
  unfold stage planAction
  refine Meets.require (fun hkind => ?_) fun _ u hu => hclean .refl hu
  refine Meets.require (fun ha => ?_) fun _ u hu => hclean .refl hu
  refine (((isRevoked_does hs).frame (F := Since p root fun _ => False) .refl
    fun _ _ h hl => h.later hl).mono (fun _ _ _ => trivial) (fun _ _ h => h)
      fun _ _ h => h.2.clean fun _ hf => hf.elim).bind hs fun b t ht _ hb => ?_
  obtain ⟨hb, hsince⟩ := hb
  cases b with
  | true => exact fun u hu => hclean hsince hu
  | false =>
    have hm := (hb.2 rfl).1
    refine Meets.bind (Q := fun h u => bundle.hash = .ok h ∧ Since p root (fun _ => False) u)
      (Meets.lift (fun h hh u hu => ⟨hh, hsince.later hu⟩) fun _ _ u hu => hclean hsince hu) ht
        fun planHash u hu _ hh => ?_
    obtain ⟨hh, hsince⟩ := hh
    have hopen : Does a p Any (fun _ v => Since p root (fun _ => False) v)
        (fun _ v => root.Clean p → v.Clean p) (access .openPublished) u :=
      Meets.ask fun v hv => ⟨trivial, .refl hv.inv, fun w hw => (hsince.later hv).later hw⟩
    refine hopen.bind hu fun found v hv _ hsince => ?_
    cases found with
    | some d =>
      exact (stageExisting_does hv hm hsince).mono (fun _ _ _ => trivial) (fun _ _ h => h)
        fun _ _ h => h
    | none => exact stagePublish_does hv hkind ha hh hm hsince

end Staging

end PlanStore

end MonitorController
