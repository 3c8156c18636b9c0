import MonitorController.Plans.Store

/-! # The protocol of the plan store

While the identity is not revoked, whatever has been published keeps its name;
a name which is lost never comes back, and only a directory without its name is
emptied. Of a late publication nothing is promised but that its own process
knows it.
-/

namespace MonitorController

open Interleaving

variable {Plan : Type} {codec : PlanCodec Plan} {Proc : Type} {a : ActionId}

namespace PlanDirectory

variable {D D' D'' : PlanDirectory codec Proc}

/-- The files are those which were published. -/
structure Intact (D : PlanDirectory codec Proc) : Prop where
  plan : D.plan = some D.origin.plan
  sha256 : D.sha256 = some D.originHash
  artifacts : D.artifacts.getD [] = D.origin.artifacts
  changes : D.changes = 0

/-- What is left of the files is as it was published for the identity. -/
structure Sound (a : ActionId) (D : PlanDirectory codec Proc) : Prop where
  action : codec.actionId D.origin.plan = a
  hash : D.origin.hash = .ok D.originHash
  plan : ∀ plan ∈ D.plan, plan = D.origin.plan
  artifacts : ∀ artifact ∈ D.artifacts.getD [], artifact ∈ D.origin.artifacts

/-- Where a directory comes from does not change. -/
structure Evolves (D D' : PlanDirectory codec Proc) : Prop where
  origin : D'.origin = D.origin
  originHash : D'.originHash = D.originHash
  process : D'.process = D.process

theorem Evolves.refl (D : PlanDirectory codec Proc) : D.Evolves D := ⟨rfl, rfl, rfl⟩

theorem Evolves.trans (h : D.Evolves D') (h' : D'.Evolves D'') : D.Evolves D'' :=
  ⟨h'.origin.trans h.origin, h'.originHash.trans h.originHash, h'.process.trans h.process⟩

theorem Sound.withoutArtifact (h : D.Sound a) (path : String) : (D.withoutArtifact path).Sound a where
  action := h.action
  hash := h.hash
  plan := h.plan
  artifacts := by
    intro artifact hmem
    refine h.artifacts artifact ?_
    cases hD : D.artifacts with
    | none => simp [PlanDirectory.withoutArtifact, hD] at hmem
    | some l =>
      simp only [PlanDirectory.withoutArtifact, hD, Option.map_some, Option.getD_some,
        List.mem_filter] at hmem
      exact hmem.1

end PlanDirectory

namespace PlanRoot

variable {root root' root'' : PlanRoot codec Proc} {p : Proc}

/-- The invariant of the staging root. -/
structure Consistent (a : ActionId) (root : PlanRoot codec Proc) : Prop where
  known : ∀ d, (root.directory d).isSome ↔ d < root.published
  named : ∀ d, root.name = some d → ∃ D, root.directory d = some D ∧ D.Intact
  sound : ∀ d D, root.directory d = some D → D.Sound a
  unrevoked : root.marker.isWritten = false → ∀ d < root.published, root.name = some d
  revoked : ∀ k, root.marker = .written k → k ≤ root.published ∧ k ≤ 1

/-- How the staging root may change. -/
structure Evolves (root root' : PlanRoot codec Proc) : Prop where
  published : root.published ≤ root'.published
  directory : ∀ d D, root.directory d = some D → ∃ D', root'.directory d = some D' ∧ D.Evolves D'
  name : ∀ d < root.published, root'.name = some d → root.name = some d
  marked : root.marker ≠ .absent → root'.marker ≠ .absent
  written : ∀ k, root.marker = .written k → root'.marker = .written k
  since : ∀ k, root'.marker = .written k → root.marker = .written k ∨ root.published ≤ k

theorem Evolves.refl (root : PlanRoot codec Proc) : root.Evolves root where
  published := Nat.le_refl _
  directory _ D hD := ⟨D, hD, .refl D⟩
  name _ _ hd := hd
  marked hm := hm
  written _ hk := hk
  since _ hk := .inl hk

theorem Evolves.trans (h : root.Evolves root') (h' : root'.Evolves root'') :
    root.Evolves root'' where
  published := Nat.le_trans h.published h'.published
  directory d D hD := by
    obtain ⟨D', hD', hev⟩ := h.directory d D hD
    obtain ⟨D'', hD'', hev'⟩ := h'.directory d D' hD'
    exact ⟨D'', hD'', hev.trans hev'⟩
  name d hd hname := h.name d hd (h'.name d (Nat.lt_of_lt_of_le hd h.published) hname)
  marked hm := h'.marked (h.marked hm)
  written k hk := h'.written k (h.written k hk)
  since k hk := by
    rcases h'.since k hk with hk | hk
    · exact h.since k hk
    · exact .inr (Nat.le_trans h.published hk)

/-- The directories which the process has published. -/
def publishedBy (p : Proc) (root : PlanRoot codec Proc) (d : Nat) : Prop :=
  ∃ D, root.directory d = some D ∧ D.process = p

def protocol (a : ActionId) : Protocol (PlanRoot codec Proc) Proc (Nat → Prop) where
  inv := Consistent a
  evolves := Evolves
  own := publishedBy
  refl := .refl
  trans := .trans

theorem Empty.consistent (h : root.Empty) : root.Consistent a := by
  obtain ⟨hm, hn, hp, hd⟩ := h
  constructor
  · simp [hd, hp]
  · simp [hn]
  · simp [hd]
  · simp [hp]
  · simp [hm]

namespace Consistent

variable (h : root.Consistent a)

include h

theorem lt_published {d : Nat} {D : PlanDirectory codec Proc} (hD : root.directory d = some D) :
    d < root.published :=
  (h.known d).mp (by simp [hD])

theorem published_le_one (hm : root.marker.isWritten = false) : root.published ≤ 1 := by
  by_contra hp
  have hzero := h.unrevoked hm 0 (by omega)
  have hone := h.unrevoked hm 1 (by omega)
  rw [hzero] at hone
  cases hone

theorem mark {m : Marker} (hmarked : root.marker ≠ .absent → m ≠ .absent) (hwritten : ∀ k, root.marker = .written k → m = .written k)
    (hnew : ∀ k, m = .written k → root.marker = .written k ∨
      root.marker.isWritten = false ∧ k = root.published)
    (hkeep : m.isWritten = false → root.marker.isWritten = false) :
    (protocol a).Guarantees p root { root with marker := m } where
  inv := by
    refine ⟨h.known, h.named, h.sound, fun hm => h.unrevoked (hkeep hm), fun k hk => ?_⟩
    rcases hnew k hk with hold | ⟨hm, rfl⟩
    · exact h.revoked k hold
    · exact ⟨Nat.le_refl _, h.published_le_one hm⟩
  evolves := by
    refine ⟨Nat.le_refl _, fun d D hD => ⟨D, hD, .refl D⟩, fun _ _ hd => hd, hmarked, hwritten,
      fun k hk => ?_⟩
    rcases hnew k hk with hold | ⟨-, rfl⟩
    · exact .inl hold
    · exact .inr (Nat.le_refl _)
  own _ _ := rfl

theorem createMarker : (protocol a).Guarantees p root root.createMarker.2 := by
  unfold PlanRoot.createMarker
  split
  · rename_i hm
    refine h.mark nofun ?_ nofun fun _ => by simp [hm, Marker.isWritten]
    intro k hk
    rw [hm] at hk
    cases hk
  · exact .refl h

theorem writeMarker : (protocol a).Guarantees p root root.writeMarker.2 := by
  unfold PlanRoot.writeMarker
  split
  · rename_i hm
    refine h.mark nofun ?_ ?_ nofun
    · intro k hk
      rw [hm] at hk
      cases hk
    · rintro k ⟨⟩
      exact .inr ⟨by simp [hm, Marker.isWritten], rfl⟩
  · exact .refl h

/-- A directory without its name changes. -/
theorem set {d : Nat} {D D' : PlanDirectory codec Proc} (hD : root.directory d = some D)
    (hev : D.Evolves D') (hs : D'.Sound a) (hn : root.name ≠ some d) :
    (protocol a).Guarantees p root (root.set d D') := by
  have hother : ∀ {e : Nat}, e ≠ d → (root.set d D').directory e = root.directory e :=
    fun hed => set_directory_of_ne root hed D'
  refine ⟨⟨fun e => ?_, fun e he => ?_, fun e E hE => ?_, h.unrevoked, h.revoked⟩,
    ⟨Nat.le_refl _, fun e E hE => ?_, fun _ _ he => he, fun hm => hm, fun _ hk => hk,
      fun _ hk => .inl hk⟩,
    fun q hq => funext fun e => propext ?_⟩
  · by_cases hed : e = d
    · subst hed
      simpa [hD] using h.known e
    · exact hother hed ▸ h.known e
  · have hed : e ≠ d := fun hed => hn (hed ▸ he)
    obtain ⟨E, hE, hintact⟩ := h.named e he
    exact ⟨E, (hother hed).trans hE, hintact⟩
  · by_cases hed : e = d
    · subst hed
      obtain rfl : D' = E := by simpa using hE
      exact hs
    · exact h.sound e E ((hother hed).symm.trans hE)
  · by_cases hed : e = d
    · subst hed
      obtain rfl : D = E := Option.some.inj (hD.symm.trans hE)
      exact ⟨D', set_directory_self .., hev⟩
    · exact ⟨E, (hother hed).trans hE, .refl E⟩
  · by_cases hed : e = d
    · subst hed
      simp [protocol, publishedBy, hD, hev.process]
    · simp only [protocol, publishedBy, hother hed]

theorem remove {d : Nat} {present : PlanDirectory codec Proc → Bool}
    {put : PlanDirectory codec Proc → PlanDirectory codec Proc} (hn : root.name ≠ some d)
    (hev : ∀ D : PlanDirectory codec Proc, D.Evolves (put D))
    (hs : ∀ D : PlanDirectory codec Proc, D.Sound a → (put D).Sound a) :
    (protocol a).Guarantees p root (root.remove d present put).2 := by
  unfold PlanRoot.remove
  cases hD : root.directory d with
  | none => exact .refl h
  | some D =>
    dsimp only
    split
    · exact h.set hD (hev D) (hs D (h.sound d D hD)) hn
    · exact .refl h

/-- The published directory loses its name. -/
theorem detach (hm : root.marker.isWritten = true) :
    (protocol a).Guarantees p root root.detach.2 := by
  unfold PlanRoot.detach
  cases hn : root.name with
  | none => exact .refl h
  | some d =>
    obtain ⟨D, hD, -⟩ := h.named d hn
    simp only [hD]
    have hother : ∀ {e : Nat} {E : PlanDirectory codec Proc}, e ≠ d →
        (root.set d E).directory e = root.directory e := fun hed => set_directory_of_ne root hed _
    have hs := h.sound d D hD
    refine ⟨⟨fun e => ?_, nofun, fun e E hE => ?_, fun hf => ?_, h.revoked⟩,
      ⟨Nat.le_refl _, fun e E hE => ?_, nofun, fun hm => hm, fun _ hk => hk,
        fun _ hk => .inl hk⟩,
      fun q hq => funext fun e => propext ?_⟩
    · by_cases hed : e = d
      · subst hed
        simpa [hD] using h.known e
      · exact (hother hed).symm ▸ h.known e
    · by_cases hed : e = d
      · subst hed
        obtain rfl : { D with changes := D.changes + 1 } = E := by simpa using hE
        exact ⟨hs.action, hs.hash, hs.plan, hs.artifacts⟩
      · exact h.sound e E ((hother hed).symm.trans hE)
    · exact absurd (hm.symm.trans hf) nofun
    · by_cases hed : e = d
      · subst hed
        obtain rfl : D = E := Option.some.inj (hD.symm.trans hE)
        exact ⟨_, set_directory_self .., ⟨rfl, rfl, rfl⟩⟩
      · exact ⟨E, (hother hed).trans hE, .refl E⟩
    · by_cases hed : e = d
      · subst hed
        simp [protocol, publishedBy, hD]
      · simp only [protocol, publishedBy, hother hed]

theorem publish {bundle : DesktopPlanBundle codec} {planHash : PlanHash}
    (ha : codec.actionId bundle.plan = a) (hh : bundle.hash = .ok planHash) :
    (protocol a).Guarantees p root (root.publish p bundle planHash).2 := by
  unfold PlanRoot.publish
  cases hn : root.name with
  | some d => exact .refl h
  | none =>
    have hold : ∀ {d : Nat} {D x : PlanDirectory codec Proc}, root.directory d = some D →
        Function.update root.directory root.published (some x) d = some D := by
      intro d D x hD
      rw [Function.update_of_ne (h.lt_published hD).ne, hD]
    have hcases : ∀ {d : Nat} {D x : PlanDirectory codec Proc},
        Function.update root.directory root.published (some x) d = some D →
          (d = root.published ∧ D = x) ∨ root.directory d = some D := by
      intro d D x hD
      by_cases hd : d = root.published
      · subst hd
        exact .inl ⟨rfl, by simpa using hD.symm⟩
      · rw [Function.update_of_ne hd] at hD
        exact .inr hD
    refine ⟨⟨fun d => ?_, fun d hd => ?_, fun d D hD => ?_, fun hm d hd => ?_, fun k hk => ?_⟩,
      ⟨Nat.le_succ _, fun d D hD => ⟨D, hold hD, .refl D⟩, fun d hd hname => ?_, fun hm => hm,
        fun _ hk => hk, fun _ hk => .inl hk⟩, fun q hq => funext fun d => propext ?_⟩
    · by_cases hd : d = root.published
      · subst hd
        simp
      · have hknown := h.known d
        dsimp only
        rw [Function.update_of_ne hd, hknown]
        omega
    · obtain rfl : root.published = d := Option.some.inj hd
      refine ⟨_, Function.update_self .., rfl, rfl, ?_, rfl⟩
      cases bundle.artifacts with
      | nil => rfl
      | cons artifact artifacts => rfl
    · rcases hcases hD with ⟨-, rfl⟩ | hD
      · refine ⟨ha, hh, by rintro plan ⟨⟩; rfl, fun artifact hmem => ?_⟩
        dsimp only at hmem ⊢
        split at hmem
        · cases hmem
        · exact hmem
      · exact h.sound d D hD
    · have hempty : root.published = 0 := by
        by_contra hne
        have hzero := h.unrevoked hm 0 (by omega)
        rw [hn] at hzero
        cases hzero
      dsimp only at hd ⊢
      rw [show d = root.published by omega]
    · have hrevoked := h.revoked k hk
      exact ⟨Nat.le_succ_of_le hrevoked.1, hrevoked.2⟩
    · obtain rfl : root.published = d := Option.some.inj hname
      omega
    · have hpq : p ≠ q := fun hpq => hq hpq.symm
      constructor
      · rintro ⟨D, hD, rfl⟩
        rcases hcases hD with ⟨-, rfl⟩ | hD
        · exact absurd rfl hpq
        · exact ⟨D, hD, rfl⟩
      · rintro ⟨D, hD, rfl⟩
        exact ⟨D, hold hD, rfl⟩

end Consistent

/-- What an access needs to be known before it is made. -/
def Permitted (a : ActionId) (root : PlanRoot codec Proc) : PlanAccess codec → Prop
  | .publish bundle planHash => codec.actionId bundle.plan = a ∧ bundle.hash = .ok planHash
  | .detach => root.marker.isWritten = true
  | .unlinkArtifact d _ | .removeArtifactRoot d | .unlinkPlan d | .unlinkHash d =>
    root.name ≠ some d
  | _ => True

theorem Consistent.perform (h : root.Consistent a) {q : PlanAccess codec}
    (hq : root.Permitted a q) : (protocol a).Guarantees p root (root.perform p q).2 := by
  cases q with
  | createMarker => exact h.createMarker
  | writeMarker => exact h.writeMarker
  | publish bundle planHash => exact h.publish hq.1 hq.2
  | detach => exact h.detach hq
  | unlinkArtifact d path =>
    exact h.remove hq (fun D => ⟨rfl, rfl, rfl⟩) fun D hD => hD.withoutArtifact path
  | removeArtifactRoot d =>
    refine h.remove hq (fun D => ⟨rfl, rfl, rfl⟩) fun D hD => ?_
    exact ⟨hD.action, hD.hash, hD.plan, nofun⟩
  | unlinkPlan d =>
    refine h.remove hq (fun D => ⟨rfl, rfl, rfl⟩) fun D hD => ?_
    exact ⟨hD.action, hD.hash, nofun, hD.artifacts⟩
  | unlinkHash d =>
    refine h.remove hq (fun D => ⟨rfl, rfl, rfl⟩) fun D hD => ?_
    exact ⟨hD.action, hD.hash, hD.plan, hD.artifacts⟩
  | _ => exact .refl h

end PlanRoot

end MonitorController
