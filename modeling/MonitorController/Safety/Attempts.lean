import MonitorController.Safety.Discards
import MonitorController.Safety.Retries

/-! # Remembered attempts

Only an acknowledged launch adds an attempt, of the topology in which it was
admitted. No attempt at a pending load is remembered, and a worker which has
not been reported on has no exit status.
-/

namespace MonitorController

/-- No attempt at a pending load is remembered, and all attempts are of this topology. -/
structure Untried (s : State) : Prop where
  pending : ∀ a ∈ s.application, a.lifecycle = .admitted → a.key ∉ s.attemptedApplicationKeys
  probeEpoch : ∀ k ∈ s.attemptedProbeKeys, k.physicalEpoch = s.physicalEpoch
  epoch : ∀ k ∈ s.attemptedApplicationKeys, k.physicalEpoch = s.physicalEpoch

theorem Untried.kept {s s' : State} (h : Untried s) (hk : Kept s s')
    (hprobe : s'.attemptedProbeKeys ⊆ s.attemptedProbeKeys)
    (hkeys : s'.attemptedApplicationKeys ⊆ s.attemptedApplicationKeys)
    (he : s'.physicalEpoch = s.physicalEpoch) : Untried s' where
  pending := by
    intro a ha hl hmem
    obtain ⟨b, hb, hcarries⟩ := hk.application.of_mem ha
    have hlb := hcarries.admitted hl
    cases hcarries with
    | application b w hw hid hp => exact h.pending b hb hlb (hkeys hmem)
  probeEpoch := fun k hk => (h.probeEpoch k (hprobe hk)).trans he.symm
  epoch := fun k hk => (h.epoch k (hkeys hk)).trans he.symm

section Classification

variable {s s' : State} {o : CanonicalObservation} {target : ProfileMatch} {d : Decision}
  {es : List Effect}

theorem otherAttempts_subset (s : State) (profile : Text) :
    s.otherAttempts profile ⊆ s.attemptedApplicationKeys := Finset.filter_subset _ _

theorem Advances.forgets (h : Advances s o es d) :
    d.state.attemptedApplicationKeys ⊆ s.attemptedApplicationKeys := by
  cases h with
  | finalized since c hv hc hp hf => exact otherAttempts_subset s.dropPlan _
  | adopted since c hv hc hp hb => exact otherAttempts_subset s _
  | _ => exact subset_rfl

theorem Selects.forgets (hd : Selects s o d) :
    d.state.attemptedApplicationKeys ⊆ s.attemptedApplicationKeys := by
  cases hd with
  | waits hw hc ht => cases hw; exact subset_rfl
  | waitsKnown hw c hz hc hk => cases hw; exact subset_rfl
  | waitsSpent target ht hz hw hx hk hs => cases hw; exact subset_rfl
  | stable target ht hx hs =>
    obtain ⟨keys, hkeys, profiles, heq⟩ := rearmAchievedApplication_eq (clearUnknown s) target.profile
    rw [heq]
    exact hkeys
  | verifies target s' es s'' fs ht hx hv hp ha =>
    obtain ⟨keys, hkeys, profiles, heq⟩ := rearmAchievedApplication_eq (clearUnknown s) target.profile
    rw [heq] at hv
    have hplanned : s''.attemptedApplicationKeys ⊆ s.attemptedApplicationKeys := by
      rw [hp.attempted]
      exact hv.attempted.subset.trans hkeys
    exact ha.forgets.trans hplanned
  | applies target ht hz hx action ha hk => exact Finset.erase_subset _ _
  | _ => exact subset_rfl

theorem Classifies.forgets (hc : Classifies s o d) :
    d.state.attemptedApplicationKeys ⊆ s.attemptedApplicationKeys := by
  cases hc with
  | unplugging s' he hu => cases hu; exact subset_rfl
  | retained s' hset hr => exact hset.attempted.subset
  | selected s' s'' hset hr hd =>
    exact hd.forgets.trans ((attempted_retainFailure hr).trans hset.attempted).subset

/-- A selection keeps the load, or admits one whose attempts are forgotten. -/
theorem Selects.untried (hd : Selects s o d) (h : Untried s) : Untried d.state := by
  have hframe := hd.frame
  have hforgets := hd.forgets
  have kept (ha : d.state.application = s.application) : Untried d.state := by
    refine ⟨fun a hmem hl hkey => ?_, fun k hmem => ?_, fun k hmem => ?_⟩
    · exact h.pending a (ha ▸ hmem) hl (hforgets hkey)
    · rw [hframe.attemptedProbeKeys] at hmem
      exact (h.probeEpoch k hmem).trans hframe.physicalEpoch.symm
    · exact (h.epoch k (hforgets hmem)).trans hframe.physicalEpoch.symm
  cases hd with
  | deferred hz hn => exact kept rfl
  | waits hw hc ht => cases hw; exact kept rfl
  | waitsKnown hw c hz hc hk => cases hw; exact kept rfl
  | waitsSpent target ht hz hw hx hk hs => cases hw; exact kept rfl
  | probes c hz hc action ha hk => exact kept rfl
  | stable target ht hx hs =>
    obtain ⟨keys, -, profiles, heq⟩ := rearmAchievedApplication_eq (clearUnknown s) target.profile
    rw [heq] at kept ⊢
    exact kept rfl
  | verifies target s' es s'' fs ht hx hv hp ha =>
    exact kept (aside_verification hv hp ha).application
  | applies target ht hz hx action ha hk =>
    refine ⟨?_, h.probeEpoch, fun k hmem => h.epoch k (Finset.mem_of_mem_erase hmem)⟩
    rintro a ⟨⟩ - hmem
    exact Finset.notMem_erase _ _ hmem
  | unknown phase since t hp hs hc ht => exact kept rfl

theorem Classifies.untried (hc : Classifies s o d) (h : Untried s) : Untried d.state := by
  have hframe := hc.frame
  cases hc with
  | unplugging s' he hu =>
    have hkept := hu.kept.trans (kept_releaseFailures s')
    have hkeys : s'.attemptedApplicationKeys = s.attemptedApplicationKeys := by
      cases hu
      rfl
    obtain ⟨hpending, hprobe, hepoch⟩ := h.kept hkept hframe.attemptedProbeKeys.subset hkeys.subset
      hframe.physicalEpoch
    exact ⟨hpending, hprobe, hepoch⟩
  | retained s' hset hr =>
    obtain ⟨hpending, hprobe, hepoch⟩ := h.kept hset.kept hframe.attemptedProbeKeys.subset
      hset.attempted.subset hframe.physicalEpoch
    exact ⟨hpending, hprobe, hepoch⟩
  | selected s' s'' hset hr hd =>
    have hretain := frame_retainFailure s' o
    have hkept := kept_retainFailure s' o
    rw [hr] at hretain hkept
    have hbefore := hset.frame.trans hretain
    have hkeys := (attempted_retainFailure hr).trans hset.attempted
    exact hd.untried (h.kept (hset.kept.trans hkept) hbefore.attemptedProbeKeys.subset hkeys.subset
      hbefore.physicalEpoch)

end Classification

section Samples

variable {s s' : State} {prior : Option CanonicalObservation} {o : CanonicalObservation}
  {d : Decision} {es : List Effect}

theorem Frees.untried (hf : Frees s prior o s' es) (h : Untried s) : Untried s' := by
  have hkept := hf.kept
  rcases hf.attempts with ⟨hepoch, -, hprobe⟩ | ⟨hepoch, -⟩
  · rcases hf.attempted with hkeys | hnew
    · exact h.kept hkept hprobe.subset hkeys.subset hepoch
    · exact absurd (hepoch.symm.trans hnew) (Nat.succ_ne_self _).symm
  · cases hf with
    | entered ht hr => exact ⟨by rintro a ⟨⟩, by simp [State.enterEpoch], by simp [State.enterEpoch]⟩
    | idle ht hb =>
      have hsame := (stays_leaveSlowWait (o := o) s prior).physicalEpoch
      exact absurd (hsame.symm.trans hepoch) (Nat.succ_ne_self _).symm
    | cancelled ht hc =>
      exact absurd (hc.stays.physicalEpoch.symm.trans hepoch) (Nat.succ_ne_self _).symm
    | concluded a b ht ha hl he hb hbl => exact absurd hepoch (Nat.succ_ne_self _).symm

theorem Frees.forgets (h : Frees s prior o s' es) :
    s'.attemptedProbeKeys ⊆ s.attemptedProbeKeys ∧
      s'.attemptedApplicationKeys ⊆ s.attemptedApplicationKeys := by
  cases h with
  | entered ht hr => exact ⟨Finset.empty_subset _, Finset.empty_subset _⟩
  | idle ht hb =>
    obtain ⟨phase, aggressive, index, -, heq⟩ := leaveSlowWait_eq s prior o
    rw [heq]
    exact ⟨subset_rfl, subset_rfl⟩
  | cancelled ht hc => cases hc <;> exact ⟨subset_rfl, subset_rfl⟩
  | concluded a b ht ha hl he hb hbl => exact ⟨subset_rfl, subset_rfl⟩

theorem Observed.forgets (h : Observed s prior o d) :
    d.state.attemptedProbeKeys ⊆ s.attemptedProbeKeys ∧
      d.state.attemptedApplicationKeys ⊆ s.attemptedApplicationKeys := by
  cases h with
  | revoked r s' es t hv hl hr ht =>
    have hrevoked := hr.stays.attemptedProbeKeys
    exact ⟨hrevoked.subset, hr.applicationKeys.subset⟩
  | stopped r s' t hv hs hi hc ht => cases hs <;> exact ⟨subset_rfl, subset_rfl⟩
  | refused s' t hv hs ht hc hq => cases hs <;> exact ⟨subset_rfl, subset_rfl⟩
  | completed a hv ha hl he =>
    exact ⟨subset_rfl, otherAttempts_subset (s.bury a.actionId .completed).dropPlan _⟩
  | confirmed s' eff hv ht hc => cases hc <;> exact ⟨subset_rfl, subset_rfl⟩
  | classified s' es d' hv hf hc =>
    obtain ⟨hprobe, hkeys⟩ := hf.forgets
    exact ⟨hc.frame.attemptedProbeKeys.subset.trans hprobe, hc.forgets.trans hkeys⟩
  | _ => exact ⟨subset_rfl, subset_rfl⟩

end Samples

section Steps

variable {s : State} {e : Event} {d : Decision}

/-- An attempt is remembered when its launch is acknowledged, and only then. -/
inductive Remembers (s : State) (e : Event) (s' : State) : Prop
  | kept (hprobe : s'.attemptedProbeKeys ⊆ s.attemptedProbeKeys)
    (hkeys : s'.attemptedApplicationKeys ⊆ s.attemptedApplicationKeys)
  | probe (f a) (he : e = .probeDispatched f) (ha : s.probe = some a) (hl : a.lifecycle = .admitted)
    (hi : a.actionId = f.actionId)
    (hprobe : s'.attemptedProbeKeys = insert a.key s.attemptedProbeKeys)
    (hkeys : s'.attemptedApplicationKeys = s.attemptedApplicationKeys)
  | application (f a) (he : e = .applicationDispatched f) (ha : s.application = some a)
    (hl : a.lifecycle = .admitted) (hi : a.actionId = f.actionId)
    (hprobe : s'.attemptedProbeKeys = s.attemptedProbeKeys)
    (hkeys : s'.attemptedApplicationKeys = insert a.key s.attemptedApplicationKeys)
    (hb : ∀ b ∈ s'.application, b.lifecycle ≠ .admitted)

theorem Step.remembers (h : Step s e d) : Remembers s e d.state := by
  cases h with
  | observed e hb hf ho =>
    obtain ⟨hprobe, hkeys⟩ := ho.forgets
    exact .kept hprobe hkeys
  | hinted e s' es t hb hg ht hh =>
    cases hh with
    | withdrawn hl hw => cases hw <;> exact .kept subset_rfl subset_rfl
    | reopened hq hf hp => exact .kept subset_rfl subset_rfl
    | kept hp => exact .kept subset_rfl subset_rfl
  | dirtied e r s' es t hb hr he hl hg ht hw =>
    rcases hw with hw | ⟨-, rfl, -⟩
    · cases hw <;> exact .kept subset_rfl subset_rfl
    · exact .kept subset_rfl subset_rfl
  | probeDispatched e a w ha hl hi hd => exact .probe e a rfl ha hl hi rfl rfl
  | applicationDispatched e a w ha hl hi hd =>
    refine .application e a rfl ha hl hi rfl rfl ?_
    rintro b ⟨⟩ hlb
    have hlw : w.lifecycle = .admitted := hlb
    rw [hd] at hlw
    cases hlw
  | closed e r l v es t hr hk' he hl hv hes ht => cases r <;> exact .kept subset_rfl subset_rfl
  | failed e r r' phase es t hr hc hf he hp hes => cases r' <;> exact .kept subset_rfl subset_rfl
  | doubted e r v t hr hk' hl he ht => cases r <;> exact .kept subset_rfl subset_rfl
  | restarted e a s' es t ha hl hw ht => cases hw; exact .kept subset_rfl subset_rfl
  | booted e hb => exact .kept (Finset.empty_subset _) (Finset.empty_subset _)
  | _ => exact .kept subset_rfl subset_rfl

theorem Step.untried (h : Step s e d) (hs : Sound s) (ht : Untried s) : Untried d.state := by
  by_cases hc : Classified s e d
  · obtain ⟨f, rfl, -, -, -, ⟨s', es, d', hf, hcl⟩⟩ := hc
    have hrecorded : Untried (recordObservation s f.observation) :=
      ht.kept {} subset_rfl subset_rfl rfl
    have hafter := hcl.untried (hf.untried hrecorded)
    exact hafter
  · obtain ⟨hk, hmoves⟩ := h.cases_on.resolve_right hc
    have hepoch : d.state.physicalEpoch = s.physicalEpoch := by
      rcases hmoves with hstays | hprobes | ⟨b, -, -, hboot⟩
      · exact hstays.physicalEpoch
      · cases hprobes with
        | intro f a b ha hl hb hbl hkeys hepoch htoken hboot hbars => exact hepoch
      · rw [hboot]
        rfl
    have inserted {k : ProbeAttemptKey} {a : ProbeAction} (ha : s.probe = some a)
        (hl : a.lifecycle = .admitted) (hmem : k ∈ insert a.key s.attemptedProbeKeys) :
        k.physicalEpoch = s.physicalEpoch := by
      rcases Finset.mem_insert.mp hmem with rfl | hmem
      · exact (hs.pending.probe a ha hl).1
      · exact ht.probeEpoch k hmem
    cases h.remembers with
    | kept hprobe hkeys => exact ht.kept hk hprobe hkeys hepoch
    | probe f a he ha hl hi hprobe hkeys =>
      refine ⟨fun b hb hlb hmem => ?_, fun k hmem => ?_, fun k hmem => ?_⟩
      · obtain ⟨c, hcs, hcarries⟩ := hk.application.of_mem hb
        have hlc := hcarries.admitted hlb
        rw [hkeys] at hmem
        cases hcarries with
        | application c w hw hid hp => exact ht.pending c hcs hlc hmem
      · exact (inserted ha hl (hprobe ▸ hmem)).trans hepoch.symm
      · exact (ht.epoch k (hkeys ▸ hmem)).trans hepoch.symm
    | application f a he ha hl hi hprobe hkeys hb =>
      refine ⟨fun b hmem hlb => absurd hlb (hb b hmem), fun k hmem => ?_, fun k hmem => ?_⟩
      · exact (ht.probeEpoch k (hprobe ▸ hmem)).trans hepoch.symm
      · rw [hkeys] at hmem
        rw [hepoch]
        rcases Finset.mem_insert.mp hmem with rfl | hmem
        · exact (hs.pending.application a ha hl).2.1
        · exact ht.epoch k hmem

end Steps

theorem Reachable.untried {s : State} (h : Reachable s) : Untried s := by
  refine Runs.Reachable.invariant (P := Untried) ?_ ?_ h
  · rintro _ ⟨bootId, instanceId, display, session, rfl⟩
    exact ⟨by rintro a ⟨⟩, by simp [State.initial], by simp [State.initial]⟩
  · intro s e d s' hr ht hmove
    have hreach : Reachable s := hr
    obtain ⟨hd, rfl⟩ := hmove
    exact (hreach.sound.reduces hd).2.1.untried hreach.sound ht

/-- A worker which has not been reported on has no exit status. -/
def Unreported (w : WorkerAction) : Prop :=
  w.lifecycle = .admitted ∨ w.lifecycle = .dispatched → w.exitStatus = none

/-- No worker which is pending or runs has an exit status. -/
def Silent (s : State) : Prop :=
  ∀ k, ∀ r ∈ s.slot k, ∀ w ∈ r.worker?, Unreported w

theorem Unreported.of_lifecycle {w : WorkerAction} {l : ActionLifecycle} (h : w.lifecycle = l)
    (ha : l ≠ .admitted) (hd : l ≠ .dispatched) : Unreported w := by
  rintro (hl | hl)
  · exact absurd (h.symm.trans hl) ha
  · exact absurd (h.symm.trans hl) hd

section Workers

variable {s s' : State}

theorem Silent.of_slot (h : Silent s) (r' : ActionRecord) (hslot : s'.slot r'.kind = some r')
    (hother : ∀ k, k ≠ r'.kind → s'.slot k = s.slot k) (hw : ∀ w ∈ r'.worker?, Unreported w) :
    Silent s' := by
  intro k r hr
  by_cases hk : k = r'.kind
  · rw [hk, hslot] at hr
    obtain rfl := Option.mem_some.mp hr
    exact hw
  · rw [hother k hk] at hr
    exact h k r hr

theorem Silent.of_sub (h : Silent s) (hsub : ∀ k, s'.slot k = s.slot k ∨ s'.slot k = none) :
    Silent s' := by
  intro k r hr
  rcases hsub k with heq | heq <;> rw [heq] at hr
  · exact h k r hr
  · cases hr

theorem Silent.worker (h : Silent s) {r : ActionRecord} (hr : r ∈ s.actions) {w : WorkerAction}
    (hw : w ∈ r.worker?) : Unreported w :=
  h r.kind r (State.slot_of_mem_actions hr) w hw

section Samples

variable {prior : Option CanonicalObservation} {o : CanonicalObservation} {r : ActionRecord}
  {es : List Effect} {target : ProfileMatch} {d : Decision}

theorem Withdraws.silent (h : Withdraws s r s' es) (hs : Silent s) : Silent s' := by
  cases h with
  | preparation a ha => exact hs.of_sub fun k => by cases k <;> first | exact .inl rfl | exact .inr rfl
  | finalization a ha => exact hs.of_sub fun k => by cases k <;> first | exact .inl rfl | exact .inr rfl

theorem silent_retire (hs : Silent s) (r : ActionRecord) (l : ActionLifecycle) :
    Silent (s.retire r l) := by
  refine hs.of_sub fun k => ?_
  cases r <;> cases k <;> first | exact .inl rfl | exact .inr rfl

theorem Revokes.silent (h : Revokes s r s' es) (hs : Silent s) : Silent s' := by
  cases h with
  | desktop hw => exact hw.silent hs
  | probe a ha => exact silent_retire hs _ _
  | application a ha => exact silent_retire hs _ _

theorem Cancels.silent (h : Cancels s o s') (hs : Silent s) : Silent s' := by
  cases h <;> exact silent_retire hs _ _

theorem unreported_of_worker {r' : ActionRecord} {l : ActionLifecycle} (h : r'.lifecycle = l)
    (ha : l ≠ .admitted) (hd : l ≠ .dispatched) : ∀ w ∈ r'.worker?, Unreported w := by
  intro w hw
  cases r' with
  | planning p => cases hw
  | _ =>
    obtain rfl := Option.mem_some.mp hw
    exact .of_lifecycle h ha hd

theorem Stops.silent (h : Stops s r s') (hs : Silent s) : Silent s' := by
  cases h with
  | probe a ha hl =>
    exact hs.of_slot (.probe { a with toWorkerAction := a.stop }) rfl
      (fun k hk => by cases k <;> first | rfl | exact absurd rfl hk)
      (unreported_of_worker (l := .stopping) rfl nofun nofun)
  | application a ha hl =>
    exact hs.of_slot (.application { a with toWorkerAction := a.stop }) rfl
      (fun k hk => by cases k <;> first | rfl | exact absurd rfl hk)
      (unreported_of_worker (l := .stopping) rfl nofun nofun)
  | preparation a ha hl =>
    exact hs.of_slot (.preparation { a with toWorkerAction := a.stop }) rfl
      (fun k hk => by cases k <;> first | rfl | exact absurd rfl hk)
      (unreported_of_worker (l := .stopping) rfl nofun nofun)
  | finalization a ha hl =>
    exact hs.of_slot (.finalization { a with toWorkerAction := a.stop }) rfl
      (fun k hk => by cases k <;> first | rfl | exact absurd rfl hk)
      (unreported_of_worker (l := .stopping) rfl nofun nofun)

theorem Refuses.silent (h : Refuses s s') (hs : Silent s) : Silent s' := by
  cases h with
  | finalization a b v ha hl hb hbl hv =>
    exact hs.of_slot (.finalization b) rfl
      (fun k hk => by cases k <;> first | rfl | exact absurd rfl hk)
      (unreported_of_worker hbl nofun nofun)
  | preparation a b ha hl hb hbl =>
    exact hs.of_slot (.preparation b) rfl
      (fun k hk => by cases k <;> first | rfl | exact absurd rfl hk)
      (unreported_of_worker hbl nofun nofun)

/-- A confirmation changes only the generation of an admission. -/
theorem Confirms.silent {f : Effect} (h : Confirms s o s' f) (hs : Silent s) : Silent s' := by
  cases h with
  | probe a ha hl hc =>
    refine hs.of_slot (.probe { a with toWorkerAction := a.refresh o.eventGeneration }) rfl
      (fun k hk => by cases k <;> first | rfl | exact absurd rfl hk) ?_
    have hquiet : Unreported a.toWorkerAction := hs.worker (State.mem_actions_probe ha) rfl
    rintro w ⟨⟩
    exact hquiet
  | application a ha hl hc =>
    refine hs.of_slot (.application { a with toWorkerAction := a.refresh o.eventGeneration }) rfl
      (fun k hk => by cases k <;> first | rfl | exact absurd rfl hk) ?_
    have hquiet : Unreported a.toWorkerAction := hs.worker (State.mem_actions_application ha) rfl
    rintro w ⟨⟩
    exact hquiet
  | preparation a ha hl hc =>
    refine hs.of_slot (.preparation { a with toWorkerAction := a.refresh o.eventGeneration }) rfl
      (fun k hk => by cases k <;> first | rfl | exact absurd rfl hk) ?_
    have hquiet : Unreported a.toWorkerAction := hs.worker (State.mem_actions_preparation ha) rfl
    rintro w ⟨⟩
    exact hquiet
  | finalization a ha hl hc =>
    refine hs.of_slot (.finalization { a with toWorkerAction := a.refresh o.eventGeneration }) rfl
      (fun k hk => by cases k <;> first | rfl | exact absurd rfl hk) ?_
    have hquiet : Unreported a.toWorkerAction := hs.worker (State.mem_actions_finalization ha) rfl
    rintro w ⟨⟩
    exact hquiet

theorem Advances.silent (h : Advances s o es d) (hs : Silent s) : Silent d.state := by
  cases h with
  | finalized since c hv hc hp hf =>
    exact hs.of_sub fun k => by cases k <;> first | exact .inl rfl | exact .inr rfl
  | finalizes since c q hv hc hp hf hb hq hqs hn =>
    refine hs.of_slot (.finalization (finalizationFor s o c q)) rfl
      (fun k hk => by cases k <;> first | rfl | exact absurd rfl hk) ?_
    rintro w ⟨⟩ -
    rfl
  | prepares since c p planHash hv hc hp hf hb hl hls hh hqs =>
    refine hs.of_slot (.preparation (preparationFor s o c p planHash)) rfl
      (fun k hk => by cases k <;> first | rfl | exact absurd rfl hk) ?_
    rintro w ⟨⟩ -
    rfl
  | _ => exact hs

theorem Verifies.silent (h : Verifies s o target s' es) (hs : Silent s) : Silent s' := by
  cases h with
  | kept hp hi => exact hs
  | _ => exact hs.of_sub fun k => by cases k <;> first | exact .inl rfl | exact .inr rfl

theorem Plans.silent (h : Plans s o target s' es) (hs : Silent s) : Silent s' := by
  cases h with
  | kept => exact hs
  | admitted hf hb hp =>
    refine hs.of_slot (.planning (planFor s o target)) rfl
      (fun k hk => by cases k <;> first | rfl | exact absurd rfl hk) ?_
    rintro w ⟨⟩

theorem Selects.silent (h : Selects s o d) (hs : Silent s) : Silent d.state := by
  cases h with
  | waits hw hc ht => cases hw; exact hs
  | waitsKnown hw c hz hc hk => cases hw; exact hs
  | waitsSpent target ht hz hw hx hk _ => cases hw; exact hs
  | probes c hz hc action ha hk =>
    have hdropped : Silent s.dropPlan :=
      hs.of_sub fun k => by cases k <;> first | exact .inl rfl | exact .inr rfl
    refine hdropped.of_slot (.probe action) rfl
      (fun k hk => by cases k <;> first | rfl | exact absurd rfl hk) ?_
    rintro w ⟨⟩ -
    rw [ha]
  | stable target ht hx _ =>
    obtain ⟨keys, -, profiles, heq⟩ := rearmAchievedApplication_eq (clearUnknown s) target.profile
    rw [heq]
    exact hs
  | verifies target s' es s'' fs ht hx hv hp ha =>
    obtain ⟨keys, -, profiles, heq⟩ := rearmAchievedApplication_eq (clearUnknown s) target.profile
    rw [heq] at hv
    exact ha.silent (hp.silent (hv.silent hs))
  | applies target ht hz hx action ha hk =>
    refine hs.of_slot (.application action) rfl
      (fun k hk => by cases k <;> first | rfl | exact absurd rfl hk) ?_
    rintro w ⟨⟩ -
    rw [ha]
  | _ => exact hs

theorem Classifies.silent (h : Classifies s o d) (hs : Silent s) : Silent d.state := by
  cases h with
  | unplugging s' he hu =>
    have hsame : Silent s' := by cases hu; exact hs
    have released {α : Type} (p : Prop) [Decidable p] (x : Option α) (f : α → ActionRecord) :
        (if p then none else x).map f = x.map f ∨ (if p then none else x).map f = none := by
      split
      · exact .inr rfl
      · exact .inl rfl
    refine hsame.of_sub fun k => ?_
    cases k with
    | probe => exact released _ _ _
    | application => exact released _ _ _
    | finalization => exact released _ _ _
    | _ => exact .inl rfl
  | retained s' hset hr =>
    cases hset with
    | external he => exact hs
    | unplugged he hu => cases hu <;> exact hs
  | selected s' s'' hset hr hd =>
    have hsettled : Silent s' := by
      cases hset with
      | external he => exact hs
      | unplugged he hu => cases hu <;> exact hs
    refine hd.silent ?_
    have hretained : Silent (retainFailure s' o).1 := by
      rcases retainFailure_cases s' o with hr | hr | ⟨-, hr⟩ | ⟨-, hr⟩ | ⟨-, hr⟩ <;> rw [hr]
      · exact hsettled
      · exact hsettled
      all_goals
        exact hsettled.of_sub fun k => by cases k <;> first | exact .inl rfl | exact .inr rfl
    rwa [hr] at hretained

theorem Frees.silent (h : Frees s prior o s' es) (hs : Silent s) : Silent s' := by
  cases h with
  | entered ht hr => exact hs.of_sub fun k => by cases k <;> exact .inr rfl
  | idle ht hb =>
    obtain ⟨phase, aggressive, index, -, heq⟩ := leaveSlowWait_eq s prior o
    rw [heq]
    exact hs
  | cancelled ht hc => exact hc.silent hs
  | concluded a b ht ha hl he hb hbl =>
    exact hs.of_slot (.preparation b) rfl
      (fun k hk => by cases k <;> first | rfl | exact absurd rfl hk)
      (unreported_of_worker hbl nofun nofun)

theorem Observed.silent (h : Observed s prior o d) (hs : Silent s) : Silent d.state := by
  cases h with
  | revoked r s' es t hv hl hr ht =>
    have hrevoked : Silent (revokeProofs s o) := hs
    exact hr.silent hrevoked
  | invalidInternal a t hv ha hi ht =>
    exact hs.of_slot (.application { a with toWorkerAction := a.stop }) rfl
      (fun k hk => by cases k <;> first | rfl | exact absurd rfl hk)
      (unreported_of_worker (l := .stopping) rfl nofun nofun)
  | internal a t hv ha hi ht =>
    exact hs.of_slot (.application { a with toWorkerAction := a.stop }) rfl
      (fun k hk => by cases k <;> first | rfl | exact absurd rfl hk)
      (unreported_of_worker (l := .stopping) rfl nofun nofun)
  | stopped r s' t hv hst hi hc ht => exact hst.silent hs
  | refused s' t hv hst ht hc hq => exact hst.silent hs
  | completed a hv ha hl he =>
    exact hs.of_sub fun k => by cases k <;> first | exact .inl rfl | exact .inr rfl
  | confirmed s' eff hv ht hc => exact hc.silent hs
  | classified s' es d' hv hf hc => exact hc.silent (hf.silent hs)
  | _ => exact hs

end Samples

section Steps

variable {e : Event} {d : Decision}

theorem Unreported.dispatch {w : WorkerAction} (h : Unreported w) {u : WorkerUnit} {t : Nat}
    (hu : u.actionId = w.actionId) (hl : w.lifecycle = .admitted) :
    Unreported (w.dispatch u t hu hl) := fun _ => h (.inl hl)

theorem silent_failSlot {r' : ActionRecord} (hs : Silent s)
    (hf : r'.lifecycle.failedLifecycle = true) : Silent (failSlot s r') := by
  have hquiet : ∀ w ∈ r'.worker?, Unreported w := unreported_of_worker rfl
    (fun hl => by simp [hl, ActionLifecycle.failedLifecycle] at hf)
    (fun hl => by simp [hl, ActionLifecycle.failedLifecycle] at hf)
  cases r' <;>
    exact hs.of_slot _ rfl (fun k hk => by cases k <;> first | rfl | exact absurd rfl hk) hquiet

theorem silent_stopSlot {r : ActionRecord} (hs : Silent s) (v : UncertainVerdict) :
    Silent (stopSlot s v r) := by
  cases r with
  | planning p => exact hs
  | probe a =>
    exact hs.of_slot
      (.probe { a with toWorkerAction := a.stopUncertain v.lifecycle v.post_stop }) rfl
      (fun k hk => by cases k <;> first | rfl | exact absurd rfl hk)
      (unreported_of_worker (l := .stopping) rfl nofun nofun)
  | application a =>
    exact hs.of_slot
      (.application { a with toWorkerAction := a.stopUncertain v.lifecycle v.post_stop }) rfl
      (fun k hk => by cases k <;> first | rfl | exact absurd rfl hk)
      (unreported_of_worker (l := .stopping) rfl nofun nofun)
  | preparation a =>
    exact hs.of_slot
      (.preparation { a with toWorkerAction := a.stopUncertain v.lifecycle v.post_stop }) rfl
      (fun k hk => by cases k <;> first | rfl | exact absurd rfl hk)
      (unreported_of_worker (l := .stopping) rfl nofun nofun)
  | finalization a =>
    exact hs.of_slot
      (.finalization { a with toWorkerAction := a.stopUncertain v.lifecycle v.post_stop }) rfl
      (fun k hk => by cases k <;> first | rfl | exact absurd rfl hk)
      (unreported_of_worker (l := .stopping) rfl nofun nofun)

/-- No step reports on a worker which it leaves pending or running. -/
theorem Step.silent (h : Step s e d) (hs : Silent s) : Silent d.state := by
  cases h with
  | observed e hb hf ho =>
    have hrecorded : Silent (recordObservation s e.observation) := hs
    exact ho.silent hrecorded
  | hinted e s' es t hb hg ht hh =>
    have hsuperseded : Silent (supersedeProofs s e.eventGeneration e.metadata.processedAtMs) := hs
    cases hh with
    | withdrawn hl hw => exact hw.silent hsuperseded
    | reopened hq hf hp => exact hs
    | kept hp => exact hs
  | dirtied e r s' es t hb hr he hl hg ht hw =>
    have hsuperseded : Silent (supersedeProofs s e.eventGeneration t) := hs
    rcases hw with hw | ⟨-, rfl, -⟩
    · exact hw.silent hsuperseded
    · exact hs
  | probeDispatched e a w ha hl hi hd =>
    have hquiet : Unreported w := by
      rw [hd]
      exact Unreported.dispatch (hs.worker (State.mem_actions_probe ha) rfl) _ _
    refine hs.of_slot (.probe _) rfl
      (fun k hk => by cases k <;> first | rfl | exact absurd rfl hk) ?_
    rintro w ⟨⟩
    exact hquiet
  | applicationDispatched e a w ha hl hi hd =>
    have hquiet : Unreported w := by
      rw [hd]
      exact Unreported.dispatch (hs.worker (State.mem_actions_application ha) rfl) _ _
    refine hs.of_slot (.application _) rfl
      (fun k hk => by cases k <;> first | rfl | exact absurd rfl hk) ?_
    rintro w ⟨⟩
    exact hquiet
  | preparationDispatched e a w ha hl hi hd =>
    have hquiet : Unreported w := by
      rw [hd]
      exact Unreported.dispatch (hs.worker (State.mem_actions_preparation ha) rfl) _ _
    refine hs.of_slot (.preparation _) rfl
      (fun k hk => by cases k <;> first | rfl | exact absurd rfl hk) ?_
    rintro w ⟨⟩
    exact hquiet
  | finalizationDispatched e a w ha hl hi hd =>
    have hquiet : Unreported w := by
      rw [hd]
      exact Unreported.dispatch (hs.worker (State.mem_actions_finalization ha) rfl) _ _
    refine hs.of_slot (.finalization _) rfl
      (fun k hk => by cases k <;> first | rfl | exact absurd rfl hk) ?_
    rintro w ⟨⟩
    exact hquiet
  | planRequested e p hp hst hi hk =>
    exact hs.of_slot (.planning { p with lifecycle := .dispatched }) rfl
      (fun k hk => by cases k <;> first | rfl | exact absurd rfl hk) (by rintro w ⟨⟩)
  | planCompleted e p t hp hst hi hk ht =>
    exact hs.of_slot
      (.planning { p with lifecycle := .completed, planHash := some e.planHash }) rfl
      (fun k hk => by cases k <;> first | rfl | exact absurd rfl hk) (by rintro w ⟨⟩)
  | planRetried e p t hp hst hi hk hr ht =>
    exact hs.of_sub fun k => by cases k <;> first | exact .inl rfl | exact .inr rfl
  | closed e r l v es t hr hk he hl hv hes ht => exact silent_retire hs r l
  | failed e r r' phase es t hr hc hf he hp hes =>
    have hburied : Silent (s.bury r.actionId r'.lifecycle) := hs
    exact silent_failSlot hburied hf
  | preparationReported e a b t ha he hb hl ht =>
    exact hs.of_slot (.preparation b) rfl
      (fun k hk => by cases k <;> first | rfl | exact absurd rfl hk)
      (unreported_of_worker hl nofun nofun)
  | finalizationReported e a b t ha he hb hl ht =>
    exact hs.of_slot (.finalization b) rfl
      (fun k hk => by cases k <;> first | rfl | exact absurd rfl hk)
      (unreported_of_worker hl nofun nofun)
  | doubted e r v t hr hk hl he ht => exact silent_stopSlot hs v
  | restarted e a s' es t ha hl hw ht =>
    have hrestarted : Silent { s with controllerInstance := e.controllerInstance } := hs
    exact hw.silent hrestarted
  | retried e a t ha hp ht =>
    exact hs.of_sub fun k => by cases k <;> first | exact .inl rfl | exact .inr rfl
  | booted e hb => exact hs.of_sub fun k => by cases k <;> exact .inr rfl
  | _ => exact hs

end Steps

end Workers

theorem Reachable.silent {s : State} (h : Reachable s) : Silent s := by
  refine Runs.Reachable.invariant (P := Silent) ?_ ?_ h
  · rintro _ ⟨bootId, instanceId, display, session, rfl⟩ k r hr
    cases k <;> cases hr
  · intro s e d s' hr hs hmove
    have hreach : Reachable s := hr
    obtain ⟨hd, rfl⟩ := hmove
    exact (hreach.sound.reduces hd).2.1.silent hs

end MonitorController
