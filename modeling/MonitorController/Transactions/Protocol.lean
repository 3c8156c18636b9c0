import MonitorController.Transactions.Store

/-! # The protocol of a transaction root

Requests, claims, stop intents and results keep each other in order whatever
the interleaving of the calls. Claims are never removed, so what they authorize
is stable; only a directory without any entry loses its name.
-/

namespace MonitorController

open Programs Interleaving

namespace ActionDirectory

/-- No entry is left. -/
structure Empty (D : ActionDirectory) : Prop where
  request : D.request = none
  prepared : D.prepared = none
  artifacts : D.artifacts = none
  submission : D.submissionClaim = none
  execution : D.executionClaim = none
  stopIntent : D.stopIntent = none
  result : D.result = none

theorem empty_of_names {D : ActionDirectory} (h : D.names = []) : D.Empty := by
  simp only [names, List.append_eq_nil_iff, ite_eq_right_iff, List.cons_ne_nil, imp_false,
    Bool.not_eq_true, Option.isSome_eq_false_iff, Option.isNone_iff_eq_none] at h
  obtain ⟨⟨⟨⟨⟨⟨ha, he⟩, hp⟩, hr⟩, ht⟩, hi⟩, hs⟩ := h
  exact ⟨hr, hp, ha, hs, he, hi, ht⟩

/-- The records of a directory agree with the request it was published for, and are there only
with the claims which authorize them. -/
structure Bound (D : ActionDirectory) : Prop where
  origin : D.origin.actionId = D.action
  request : ∀ r ∈ D.request, r = D.origin
  prepared : ∀ r ∈ D.prepared, r.toBinding = D.origin.binding
  submission : ∀ c ∈ D.submissionClaim, c.record.toBinding = D.origin.binding
  execution : ∀ c ∈ D.executionClaim,
    c.record.toBinding = D.origin.binding ∧ D.submissionClaim.isSome
  stopIntent : ∀ i ∈ D.stopIntent, i.toBinding = D.origin.binding ∧ D.submissionClaim.isSome
  result : ∀ r ∈ D.result, r.toBinding = D.origin.binding ∧ D.submissionClaim.isSome ∧
    (r.outcome = .completed → D.executionClaim.isSome)
  removed : D.live = false → D.Empty

/-- What may happen to a directory: it is removed, it loses its request, its preparation or
artifacts, and claims, a stop intent or a result are added. -/
structure Evolves (D D' : ActionDirectory) : Prop where
  action : D'.action = D.action
  origin : D'.origin = D.origin
  live : D'.live = true → D.live = true
  request : ∀ r ∈ D'.request, D.request = some r
  prepared : ∀ r ∈ D'.prepared, D.prepared = some r
  artifacts : ∀ l ∈ D'.artifacts, ∃ l' ∈ D.artifacts, l.Sublist l'
  submission : ∀ c ∈ D.submissionClaim, D'.submissionClaim = some c
  execution : ∀ c ∈ D.executionClaim, D'.executionClaim = some c
  stopIntent : ∀ i ∈ D.stopIntent, D'.stopIntent = some i
  result : ∀ r ∈ D.result, D'.result = some r

theorem Evolves.refl (D : ActionDirectory) : D.Evolves D :=
  ⟨rfl, rfl, id, fun _ h => h, fun _ h => h, fun l h => ⟨l, h, .refl l⟩, fun _ h => h,
    fun _ h => h, fun _ h => h, fun _ h => h⟩

theorem Evolves.trans {D E F : ActionDirectory} (h : D.Evolves E) (h' : E.Evolves F) :
    D.Evolves F where
  action := h'.action.trans h.action
  origin := h'.origin.trans h.origin
  live hl := h.live (h'.live hl)
  request r hr := h.request r (h'.request r hr)
  prepared r hr := h.prepared r (h'.prepared r hr)
  artifacts l hl := by
    obtain ⟨m, hm, hlm⟩ := h'.artifacts l hl
    obtain ⟨n, hn, hmn⟩ := h.artifacts m hm
    exact ⟨n, hn, hlm.trans hmn⟩
  submission c hc := h'.submission c (h.submission c hc)
  execution c hc := h'.execution c (h.execution c hc)
  stopIntent i hi := h'.stopIntent i (h.stopIntent i hi)
  result r hr := h'.result r (h.result r hr)

theorem Evolves.submitted {D D' : ActionDirectory} (h : D.Evolves D')
    (hs : D.submissionClaim.isSome) : D'.submissionClaim.isSome := by
  obtain ⟨c, hc⟩ := Option.isSome_iff_exists.mp hs
  exact Option.isSome_iff_exists.mpr ⟨c, h.submission c hc⟩

theorem Evolves.executing {D D' : ActionDirectory} (h : D.Evolves D')
    (hs : D.executionClaim.isSome) : D'.executionClaim.isSome := by
  obtain ⟨c, hc⟩ := Option.isSome_iff_exists.mp hs
  exact Option.isSome_iff_exists.mpr ⟨c, h.execution c hc⟩

end ActionDirectory

namespace Root

variable {Proc : Type}

/-- Every live directory has the name of its action, those which had it before are removed, and
every retained descriptor leads to a directory which had it. -/
structure Consistent (root : Root Proc) : Prop where
  known : ∀ d, (root.directory d).isSome ↔ d < root.published
  ordered : ∀ d e D E, d < e → root.directory d = some D → root.directory e = some E →
    D.action = E.action → D.live = false
  bound : ∀ d D, root.directory d = some D → D.Bound
  named : ∀ a d, root.names a = some d → ∃ D, root.directory d = some D ∧ D.action = a ∧
    D.live = true
  live : ∀ d D, root.directory d = some D → D.live = true → root.names D.action = some d
  retained : ∀ p a d, root.descriptors p a = some d →
    ∃ D, root.directory d = some D ∧ D.action = a

def Evolves (root root' : Root Proc) : Prop :=
  root.published ≤ root'.published ∧
    ∀ d D, root.directory d = some D → ∃ D', root'.directory d = some D' ∧ D.Evolves D'

def protocol : Protocol (Root Proc) Proc (ActionId → Option Nat) where
  inv := Consistent
  evolves := Evolves
  own p root := root.descriptors p
  refl root := ⟨Nat.le_refl _, fun _ D h => ⟨D, h, .refl D⟩⟩
  trans h h' := by
    refine ⟨Nat.le_trans h.1 h'.1, fun d D hd => ?_⟩
    obtain ⟨E, hE, hDE⟩ := h.2 d D hd
    obtain ⟨F, hF, hEF⟩ := h'.2 d E hE
    exact ⟨F, hF, hDE.trans hEF⟩

variable {root : Root Proc}

theorem Empty.consistent (h : root.Empty) : root.Consistent := by
  obtain ⟨hpub, hdir, hnames, hdesc⟩ := h
  exact ⟨fun d => by simp [hdir, hpub], fun d e D E _ hd => by simp [hdir] at hd,
    fun d D hd => by simp [hdir] at hd,
    fun a d ha => by simp [hnames] at ha, fun d D hd => by simp [hdir] at hd,
    fun p a d hp => by simp [hdesc] at hp⟩

/-- What has to be known for an access to keep the protocol. -/
def Permitted (root : Root Proc) : Access → Prop
  | .publish request prepared _ => prepared.toBinding = request.binding
  | .createSubmissionClaim d claim =>
    ∀ D ∈ root.directory d, claim.toBinding = D.origin.binding
  | .createExecutionClaim d claim =>
    ∀ D ∈ root.directory d, claim.toBinding = D.origin.binding ∧ D.submissionClaim.isSome
  | .createStopIntent d intent =>
    ∀ D ∈ root.directory d, intent.toBinding = D.origin.binding ∧ D.submissionClaim.isSome
  | .createResult d result =>
    ∀ D ∈ root.directory d, result.toBinding = D.origin.binding ∧ D.submissionClaim.isSome ∧
      (result.outcome = .completed → D.executionClaim.isSome)
  | _ => True

variable {p : Proc}

/-- One directory evolves and keeps its name. -/
theorem Consistent.set (h : root.Consistent) {d : Nat} {D D' : ActionDirectory}
    (hd : root.directory d = some D) (hev : D.Evolves D') (hb : D'.Bound)
    (hlive : D'.live = D.live) : protocol.Guarantees p root (root.set d D') := by
  have hset : ∀ e E, (root.set d D').directory e = some E →
      (e = d ∧ E = D') ∨ (e ≠ d ∧ root.directory e = some E) := by
    intro e E he
    by_cases hed : e = d
    · subst hed
      simp only [set_directory_self, Option.some.injEq] at he
      exact .inl ⟨rfl, he.symm⟩
    · rw [set_directory_of_ne root hed] at he
      exact .inr ⟨hed, he⟩
  have hkeep : ∀ e E, root.directory e = some E → ∃ E', (root.set d D').directory e = some E' ∧
      E.Evolves E' ∧ E'.live = E.live := by
    intro e E he
    by_cases hed : e = d
    · subst hed
      obtain rfl : D = E := Option.some.inj (hd.symm.trans he)
      exact ⟨D', by simp, hev, hlive⟩
    · exact ⟨E, by rw [set_directory_of_ne root hed, he], .refl E, rfl⟩
  have hback : ∀ e E, (root.set d D').directory e = some E →
      ∃ E', root.directory e = some E' ∧ E.action = E'.action ∧ E.live = E'.live := by
    intro e E he
    rcases hset e E he with ⟨rfl, rfl⟩ | ⟨-, he⟩
    · exact ⟨D, hd, hev.action, hlive⟩
    · exact ⟨E, he, rfl, rfl⟩
  refine ⟨⟨fun e => ?_, fun e f E F hef he hf ha => ?_, fun e E he => ?_, fun a e he => ?_,
    fun e E he hl => ?_, fun q a e he => ?_⟩, ⟨Nat.le_refl _, fun e E he => ?_⟩, fun _ _ => rfl⟩
  · by_cases hed : e = d
    · subst hed
      simpa [hd] using h.known e
    · rw [set_directory_of_ne root hed]
      exact h.known e
  · obtain ⟨E', hE', haE, hlE⟩ := hback e E he
    obtain ⟨F', hF', haF, -⟩ := hback f F hf
    exact hlE.trans (h.ordered e f E' F' hef hE' hF' (haE.symm.trans (ha.trans haF)))
  · rcases hset e E he with ⟨-, rfl⟩ | ⟨-, he⟩
    · exact hb
    · exact h.bound e E he
  · obtain ⟨E, hE, ha, hl⟩ := h.named a e he
    obtain ⟨E', hE', hEE', hlE⟩ := hkeep e E hE
    exact ⟨E', hE', hEE'.action.trans ha, hlE.trans hl⟩
  · rcases hset e E he with ⟨rfl, rfl⟩ | ⟨-, he⟩
    · rw [hev.action]
      exact h.live _ D hd (hlive ▸ hl)
    · exact h.live e E he hl
  · obtain ⟨E, hE, ha⟩ := h.retained q a e he
    obtain ⟨E', hE', hEE', -⟩ := hkeep e E hE
    exact ⟨E', hE', hEE'.action.trans ha⟩
  · obtain ⟨E', hE', hEE', -⟩ := hkeep e E he
    exact ⟨E', hE', hEE'⟩

theorem Consistent.install (h : root.Consistent) {α : Type} {d : Nat}
    {get : ActionDirectory → Option α} {put : ActionDirectory → ActionDirectory}
    (hev : ∀ D ∈ root.directory d, get D = none → D.Evolves (put D) ∧ (put D).live = D.live)
    (hb : ∀ D ∈ root.directory d, D.Bound → D.live = true → get D = none → (put D).Bound) :
    protocol.Guarantees p root (root.install d get put).2 := by
  unfold Root.install
  cases hd : root.directory d with
  | none => exact .refl h
  | some D =>
    dsimp only
    split_ifs with hlive hget
    · exact .refl h
    · exact .refl h
    · have hnone : get D = none := by simpa using hget
      obtain ⟨hev, hl⟩ := hev D hd hnone
      exact h.set hd hev (hb D hd (h.bound d D hd) (by simpa using hlive) hnone) hl

theorem Consistent.remove (h : root.Consistent) {α : Type} {d : Nat}
    {get : ActionDirectory → Option α} {put : ActionDirectory → ActionDirectory}
    (hev : ∀ D, D.Evolves (put D) ∧ (put D).live = D.live)
    (hb : ∀ D, D.Bound → (get D).isSome → (put D).Bound) :
    protocol.Guarantees p root (root.remove d get put).2 := by
  unfold Root.remove
  cases hd : root.directory d with
  | none => exact .refl h
  | some D =>
    dsimp only
    split_ifs with hget
    · exact h.set hd (hev D).1 (hb D (h.bound d D hd) hget) (hev D).2
    · exact .refl h

theorem Consistent.descriptors [DecidableEq Proc] (h : root.Consistent)
    {f : ActionId → Option Nat}
    (hf : ∀ a d, f a = some d → ∃ D, root.directory d = some D ∧ D.action = a) :
    protocol.Guarantees p root
      { root with descriptors := Function.update root.descriptors p f } := by
  refine ⟨⟨h.known, h.ordered, h.bound, h.named, h.live, fun q a d hq => ?_⟩,
    protocol.refl root, fun q hqp => Function.update_of_ne hqp ..⟩
  by_cases hqp : q = p
  · subst hqp
    exact hf a d (by simpa using hq)
  · dsimp only at hq
    rw [Function.update_of_ne hqp] at hq
    exact h.retained q a d hq

theorem Consistent.openAction [DecidableEq Proc] (h : root.Consistent) (a : ActionId) :
    protocol.Guarantees p root (root.openAction p a).2 := by
  unfold Root.openAction
  split
  · split
    · exact .refl h
    · exact .refl h
  · split
    · exact .refl h
    · rename_i d hd
      refine h.descriptors fun b e hb => ?_
      by_cases hba : b = a
      · subst hba
        obtain rfl : d = e := by simpa using hb
        obtain ⟨D, hD, ha, -⟩ := h.named b d hd
        exact ⟨D, hD, ha⟩
      · rw [Function.update_of_ne hba] at hb
        exact h.retained p b e hb

theorem bound_of_published {request : TransactionRequest} {prepared : BoundTransactionRecord}
    (hp : prepared.toBinding = request.binding) (artifacts : Option (List TransactionArtifact)) :
    (⟨request.actionId, request, true, some request, some prepared, artifacts, none, none, none,
      none⟩ : ActionDirectory).Bound where
  origin := rfl
  request := by rintro r ⟨⟩; rfl
  prepared := by rintro r ⟨⟩; exact hp
  submission := nofun
  execution := nofun
  stopIntent := nofun
  result := nofun
  removed := nofun

theorem Consistent.publish (h : root.Consistent) {request : TransactionRequest}
    {prepared : BoundTransactionRecord} (hp : prepared.toBinding = request.binding)
    (artifacts : List TransactionArtifact) :
    protocol.Guarantees p root (root.publish request prepared artifacts).2 := by
  unfold Root.publish
  cases hn : root.names request.actionId with
  | some d => exact .refl h
  | none =>
    have hlt : ∀ {d : Nat} {D : ActionDirectory}, root.directory d = some D →
        d < root.published := fun hd => (h.known _).mp (by simp [hd])
    have hcases : ∀ {d : Nat} {x : ActionDirectory} {D : ActionDirectory},
        Function.update root.directory root.published (some x) d = some D →
        (d = root.published ∧ D = x) ∨ root.directory d = some D := by
      intro d x D hd
      by_cases he : d = root.published
      · subst he
        exact .inl ⟨rfl, by simpa using hd.symm⟩
      · rw [Function.update_of_ne he] at hd
        exact .inr hd
    have hkeep : ∀ {d : Nat} {D : ActionDirectory} (x : ActionDirectory),
        root.directory d = some D →
        Function.update root.directory root.published (some x) d = some D := by
      intro d D x hd
      rw [Function.update_of_ne (hlt hd).ne, hd]
    refine ⟨⟨fun d => ?_, fun d e D E hde hd he ha => ?_, fun d D hd => ?_, fun a d ha => ?_,
      fun d D hd hl => ?_, fun q a d hq => ?_⟩,
      ⟨Nat.le_succ _, fun d D hd => ⟨D, hkeep _ hd, .refl D⟩⟩, fun _ _ => rfl⟩
    · by_cases hd : d = root.published
      · subst hd
        simp
      · have hknown := h.known d
        dsimp only
        rw [Function.update_of_ne hd, hknown]
        omega
    · rcases hcases hd with ⟨rfl, -⟩ | hd
      · rcases hcases he with ⟨rfl, -⟩ | he
        · omega
        · have := hlt he
          omega
      · rcases hcases he with ⟨rfl, rfl⟩ | he
        · by_contra hl
          have hname := h.live d D hd (by simpa using hl)
          rw [ha, hn] at hname
          cases hname
        · exact h.ordered d e D E hde hd he ha
    · rcases hcases hd with ⟨-, rfl⟩ | hd
      · exact bound_of_published hp _
      · exact h.bound d D hd
    · by_cases hra : a = request.actionId
      · subst hra
        obtain rfl : root.published = d := by simpa using ha
        exact ⟨_, Function.update_self .., rfl, rfl⟩
      · dsimp only at ha
        rw [Function.update_of_ne hra] at ha
        obtain ⟨D, hD, hact, hlive⟩ := h.named a d ha
        exact ⟨D, hkeep _ hD, hact, hlive⟩
    · rcases hcases hd with ⟨rfl, rfl⟩ | hd
      · exact Function.update_self ..
      · have hname := h.live d D hd hl
        have hra : D.action ≠ request.actionId := fun he => by simp [he, hn] at hname
        exact (Function.update_of_ne hra ..).trans hname
    · obtain ⟨D, hD, ha⟩ := h.retained q a d hq
      exact ⟨D, hkeep _ hD, ha⟩

/-- Without its name, an empty directory is removed for good. -/
theorem Consistent.removeDirectory (h : root.Consistent) (a : ActionId) :
    protocol.Guarantees p root (root.removeDirectory a).2 := by
  unfold Root.removeDirectory
  cases hn : root.names a with
  | none => exact .refl h
  | some d =>
    obtain ⟨D, hD, hact, hlive⟩ := h.named a d hn
    simp only [hD]
    split_ifs with hempty
    · have hcases : ∀ {e : Nat} {E : ActionDirectory},
          (root.set d { D with live := false }).directory e = some E →
          (e = d ∧ E = { D with live := false }) ∨ (e ≠ d ∧ root.directory e = some E) := by
        intro e E he
        by_cases hed : e = d
        · subst hed
          exact .inl ⟨rfl, by simpa using he.symm⟩
        · rw [set_directory_of_ne root hed] at he
          exact .inr ⟨hed, he⟩
      have hremoved : D.Evolves { D with live := false } :=
        { ActionDirectory.Evolves.refl D with live := nofun }
      have hkeep : ∀ {e : Nat} {E : ActionDirectory}, root.directory e = some E →
          ∃ E', (root.set d { D with live := false }).directory e = some E' ∧ E.Evolves E' ∧
            (e ≠ d → E' = E) := by
        intro e E he
        by_cases hed : e = d
        · subst hed
          obtain rfl : D = E := Option.some.inj (hD.symm.trans he)
          exact ⟨_, set_directory_self .., hremoved, fun hne => absurd rfl hne⟩
        · exact ⟨E, by rw [set_directory_of_ne root hed, he], .refl E, fun _ => rfl⟩
      have hname : ∀ {b : ActionId} {e : Nat}, b ≠ a → root.names b = some e → e ≠ d := by
        rintro b e hba hb rfl
        obtain ⟨E, hE, hEb, -⟩ := h.named b e hb
        obtain rfl : D = E := Option.some.inj (hD.symm.trans hE)
        exact hba (hEb.symm.trans hact)
      have hback : ∀ {e : Nat} {E : ActionDirectory},
          (root.set d { D with live := false }).directory e = some E →
          ∃ E', root.directory e = some E' ∧ E.action = E'.action ∧
            (E'.live = false → E.live = false) := by
        intro e E he
        rcases hcases he with ⟨rfl, rfl⟩ | ⟨-, he⟩
        · exact ⟨D, hD, rfl, fun _ => rfl⟩
        · exact ⟨E, he, rfl, id⟩
      refine ⟨⟨fun e => ?_, fun e f E F hef he hf ha => ?_, fun e E he => ?_, fun b e hb => ?_,
        fun e E he hl => ?_, fun q b e hq => ?_⟩, ⟨Nat.le_refl _, fun e E he => ?_⟩,
        fun _ _ => rfl⟩
      · by_cases hed : e = d
        · subst hed
          simpa [hD] using h.known e
        · exact (set_directory_of_ne root hed _).symm ▸ h.known e
      · obtain ⟨E', hE', haE, hlE⟩ := hback he
        obtain ⟨F', hF', haF, -⟩ := hback hf
        exact hlE (h.ordered e f E' F' hef hE' hF' (haE.symm.trans (ha.trans haF)))
      · rcases hcases he with ⟨-, rfl⟩ | ⟨-, he⟩
        · exact { h.bound d D hD with removed := fun _ =>
            { ActionDirectory.empty_of_names (List.isEmpty_iff.mp hempty) with } }
        · exact h.bound e E he
      · have hba : b ≠ a := by
          rintro rfl
          simp at hb
        dsimp only at hb
        rw [Function.update_of_ne hba] at hb
        obtain ⟨E, hE, hEb, hl⟩ := h.named b e hb
        exact ⟨E, (set_directory_of_ne root (hname hba hb) _).trans hE, hEb, hl⟩
      · rcases hcases he with ⟨-, rfl⟩ | ⟨hed, he⟩
        · cases hl
        · have hb := h.live e E he hl
          have hba : E.action ≠ a := by
            intro hEa
            rw [hEa, hn] at hb
            exact hed (Option.some.inj hb).symm
          exact (Function.update_of_ne hba ..).trans hb
      · obtain ⟨E, hE, hEb⟩ := h.retained q b e hq
        obtain ⟨E', hE', hev, -⟩ := hkeep hE
        exact ⟨E', hE', hev.action.trans hEb⟩
      · obtain ⟨E', hE', hev, -⟩ := hkeep he
        exact ⟨E', hE', hev⟩
    · exact .refl h

section Accesses

variable [DecidableEq Proc] (h : root.Consistent) (n : Nat)

include h

theorem Consistent.createSubmissionClaim {d : Nat} {claim : BoundTransactionRecord}
    (hq : root.Permitted (.createSubmissionClaim d claim)) : protocol.Guarantees p root
      (Root.perform p n (.createSubmissionClaim d claim) root).2 := by
  refine h.install (fun D hD hnone => ⟨?_, rfl⟩) fun D hD hb hl hnone => ?_
  · exact { ActionDirectory.Evolves.refl D with
      submission := fun c hc => by rw [hnone] at hc; cases hc }
  · exact { hb with
      submission := by rintro c ⟨⟩; exact hq D hD
      execution := fun c hc => ⟨(hb.execution c hc).1, rfl⟩
      stopIntent := fun i hi => ⟨(hb.stopIntent i hi).1, rfl⟩
      result := fun r hr => ⟨(hb.result r hr).1, rfl, (hb.result r hr).2.2⟩
      removed := fun hf => absurd (hl.symm.trans hf) nofun }

theorem Consistent.createExecutionClaim {d : Nat} {claim : BoundTransactionRecord}
    (hq : root.Permitted (.createExecutionClaim d claim)) : protocol.Guarantees p root
      (Root.perform p n (.createExecutionClaim d claim) root).2 := by
  refine h.install (fun D hD hnone => ⟨?_, rfl⟩) fun D hD hb hl hnone => ?_
  · exact { ActionDirectory.Evolves.refl D with
      execution := fun c hc => by rw [hnone] at hc; cases hc }
  · exact { hb with
      execution := by rintro c ⟨⟩; exact hq D hD
      result := fun r hr => ⟨(hb.result r hr).1, (hb.result r hr).2.1, fun _ => rfl⟩
      removed := fun hf => absurd (hl.symm.trans hf) nofun }

theorem Consistent.createStopIntent {d : Nat} {intent : StopIntent}
    (hq : root.Permitted (.createStopIntent d intent)) : protocol.Guarantees p root
      (Root.perform p n (.createStopIntent d intent) root).2 := by
  refine h.install (fun D hD hnone => ⟨?_, rfl⟩) fun D hD hb hl hnone => ?_
  · exact { ActionDirectory.Evolves.refl D with
      stopIntent := fun i hi => by rw [hnone] at hi; cases hi }
  · exact { hb with
      stopIntent := by rintro i ⟨⟩; exact hq D hD
      removed := fun hf => absurd (hl.symm.trans hf) nofun }

theorem Consistent.createResult {d : Nat} {result : TransactionResult}
    (hq : root.Permitted (.createResult d result)) : protocol.Guarantees p root
      (Root.perform p n (.createResult d result) root).2 := by
  refine h.install (fun D hD hnone => ⟨?_, rfl⟩) fun D hD hb hl hnone => ?_
  · exact { ActionDirectory.Evolves.refl D with
      result := fun r hr => by rw [hnone] at hr; cases hr }
  · exact { hb with
      result := by rintro r ⟨⟩; exact hq D hD
      removed := fun hf => absurd (hl.symm.trans hf) nofun }

theorem Consistent.unlinkArtifact (d : Nat) (path : String) :
    protocol.Guarantees p root (Root.perform p n (.unlinkArtifact d path) root).2 := by
  refine h.remove (fun D => ⟨?_, rfl⟩) fun D hb hsome => ?_
  · refine { ActionDirectory.Evolves.refl D with artifacts := fun l hl => ?_ }
    obtain ⟨m, hm, rfl⟩ := Option.map_eq_some_iff.mp hl
    exact ⟨m, hm, List.filter_sublist⟩
  · refine { hb with removed := fun hf => { hb.removed hf with artifacts := ?_ } }
    simp [ActionDirectory.withoutArtifact, (hb.removed hf).artifacts]

theorem Consistent.removeArtifactRoot (d : Nat) :
    protocol.Guarantees p root (Root.perform p n (.removeArtifactRoot d) root).2 := by
  refine h.remove (fun D => ⟨?_, rfl⟩) fun D hb hsome => ?_
  · exact { ActionDirectory.Evolves.refl D with artifacts := nofun }
  · exact { hb with removed := fun hf => { hb.removed hf with artifacts := rfl } }

theorem Consistent.unlinkPrepared (d : Nat) :
    protocol.Guarantees p root (Root.perform p n (.unlinkPrepared d) root).2 := by
  refine h.remove (fun D => ⟨?_, rfl⟩) fun D hb hsome => ?_
  · exact { ActionDirectory.Evolves.refl D with prepared := by simp }
  · exact { hb with
      prepared := by simp
      removed := fun hf => { hb.removed hf with prepared := rfl } }

theorem Consistent.unlinkRequest (d : Nat) :
    protocol.Guarantees p root (Root.perform p n (.unlinkRequest d) root).2 := by
  refine h.remove (fun D => ⟨?_, rfl⟩) fun D hb hsome => ?_
  · exact { ActionDirectory.Evolves.refl D with request := by simp }
  · exact { hb with
      request := by simp
      removed := fun hf => { hb.removed hf with request := rfl } }

/-- Every access keeps the protocol, when what it installs is known to be authorized. -/
theorem Consistent.perform {q : Access} (hq : root.Permitted q) :
    protocol.Guarantees p root (Root.perform p n q root).2 := by
  cases q with
  | openAction a => exact h.openAction a
  | publish request prepared artifacts => exact h.publish hq artifacts
  | createSubmissionClaim d claim => exact h.createSubmissionClaim n hq
  | createExecutionClaim d claim => exact h.createExecutionClaim n hq
  | createStopIntent d intent => exact h.createStopIntent n hq
  | createResult d result => exact h.createResult n hq
  | unlinkArtifact d path => exact h.unlinkArtifact n d path
  | removeArtifactRoot d => exact h.removeArtifactRoot n d
  | unlinkPrepared d => exact h.unlinkPrepared n d
  | unlinkRequest d => exact h.unlinkRequest n d
  | removeDirectory a => exact h.removeDirectory a
  | closeAction a =>
    refine h.descriptors fun b e hb => ?_
    by_cases hba : b = a
    · subst hba
      simp at hb
    · rw [Function.update_of_ne hba] at hb
      exact h.retained p b e hb
  | close => exact h.descriptors nofun
  | validateDirectory d => exact .refl h
  | readRequest d => exact .refl h
  | readBoundRecord d kind => exact .refl h
  | readStopIntent d => exact .refl h
  | readResult d => exact .refl h
  | artifactPaths d => exact .refl h
  | readArtifact d path executable => exact .refl h
  | listDirectory d => exact .refl h

end Accesses

end Root

end MonitorController
