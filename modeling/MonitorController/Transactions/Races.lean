import MonitorController.Transactions.Operations

/-! # Races on a transaction root

Whatever the interleaving of the calls, at most one submission and at most one
execution of an action is claimed, claims come before what they authorize, and
a directory which is discarded is one whose submission was never claimed.
-/

namespace MonitorController

open Programs Interleaving Runs

namespace ActionDirectory

variable (D : ActionDirectory)

def bindings : List Binding :=
  (D.request.map (·.binding)).toList ++ (D.prepared.map (·.toBinding)).toList ++
    (D.submissionClaim.map (·.record.toBinding)).toList ++
    (D.executionClaim.map (·.record.toBinding)).toList ++
    (D.stopIntent.map (·.toBinding)).toList ++ (D.result.map (·.toBinding)).toList

variable {D}

theorem Bound.bindings (h : D.Bound) {b : Binding} (hb : b ∈ D.bindings) :
    b = D.origin.binding := by
  simp only [ActionDirectory.bindings, List.mem_append, Option.mem_toList,
    Option.map_eq_some_iff] at hb
  obtain ((((⟨r, hr, rfl⟩ | ⟨r, hr, rfl⟩) | ⟨c, hc, rfl⟩) | ⟨c, hc, rfl⟩) | ⟨i, hi, rfl⟩) |
    ⟨r, hr, rfl⟩ := hb
  · rw [h.request r hr]
  · exact h.prepared r hr
  · exact h.submission c hc
  · exact (h.execution c hc).1
  · exact (h.stopIntent i hi).1
  · exact (h.result r hr).1

theorem Bound.live_of_submitted (h : D.Bound) (hs : D.submissionClaim.isSome) :
    D.live = true := by
  by_contra hl
  simp [(h.removed (by simpa using hl)).submission] at hs

/-- The request, its preparation and its artifacts are all still there. -/
def Keeps (D D' : ActionDirectory) : Prop :=
  D'.request = D.request ∧ D'.prepared = D.prepared ∧ D'.artifacts = D.artifacts

end ActionDirectory

def Access.removing : Access → Bool
  | .unlinkArtifact _ _ | .removeArtifactRoot _ | .unlinkPrepared _ | .unlinkRequest _ => true
  | _ => false

namespace Root

variable {Proc : Type} {root : Root Proc} {d : Nat} {D : ActionDirectory}

/-- A directory which was published with the request has been removed. -/
def Removed (root : Root Proc) (d : Nat) (r : TransactionRequest) : Prop :=
  ∃ D, root.directory d = some D ∧ D.origin = r ∧ D.live = false

theorem install_keeps {α : Type} {e : Nat} {get : ActionDirectory → Option α}
    {put : ActionDirectory → ActionDirectory} (hput : ∀ D : ActionDirectory, D.Keeps (put D))
    (hD : root.directory d = some D) {D' : ActionDirectory}
    (hD' : (root.install e get put).2.directory d = some D') : D.Keeps D' := by
  have hsame : root.directory d = some D' → D.Keeps D' := by
    intro h
    obtain rfl : D = D' := Option.some.inj (hD.symm.trans h)
    exact ⟨rfl, rfl, rfl⟩
  unfold Root.install at hD'
  split at hD'
  · exact hsame hD'
  · rename_i E hE
    split_ifs at hD' with hl hg
    · exact hsame hD'
    · exact hsame hD'
    · by_cases hde : d = e
      · subst hde
        obtain rfl : D = E := Option.some.inj (hD.symm.trans hE)
        obtain rfl : put D = D' := by simpa using hD'
        exact hput D
      · rw [set_directory_of_ne root hde] at hD'
        exact hsame hD'

/-- Only the removing accesses take something from a directory. -/
theorem Consistent.keeps [DecidableEq Proc] (h : root.Consistent) {p : Proc} {n : Nat}
    {q : Access} (hq : q.removing = false) (hD : root.directory d = some D)
    {D' : ActionDirectory} (hD' : (Root.perform p n q root).2.directory d = some D') :
    D.Keeps D' := by
  have hsame : root.directory d = some D' → D.Keeps D' := by
    intro h
    obtain rfl : D = D' := Option.some.inj (hD.symm.trans h)
    exact ⟨rfl, rfl, rfl⟩
  cases q with
  | openAction a =>
    change (root.openAction p a).2.directory d = some D' at hD'
    unfold Root.openAction at hD'
    split at hD'
    · split at hD' <;> exact hsame hD'
    · split at hD' <;> exact hsame hD'
  | publish request prepared artifacts =>
    change (root.publish request prepared artifacts).2.directory d = some D' at hD'
    unfold Root.publish at hD'
    split at hD'
    · exact hsame hD'
    · have hlt : d < root.published := (h.known d).mp (by simp [hD])
      dsimp only at hD'
      rw [Function.update_of_ne hlt.ne] at hD'
      exact hsame hD'
  | createSubmissionClaim e claim =>
    refine install_keeps ?_ hD hD'
    exact fun _ => ⟨rfl, rfl, rfl⟩
  | createExecutionClaim e claim =>
    refine install_keeps ?_ hD hD'
    exact fun _ => ⟨rfl, rfl, rfl⟩
  | createStopIntent e intent =>
    refine install_keeps ?_ hD hD'
    exact fun _ => ⟨rfl, rfl, rfl⟩
  | createResult e result =>
    refine install_keeps ?_ hD hD'
    exact fun _ => ⟨rfl, rfl, rfl⟩
  | removeDirectory a =>
    change (root.removeDirectory a).2.directory d = some D' at hD'
    unfold Root.removeDirectory at hD'
    split at hD'
    · exact hsame hD'
    · split at hD'
      · exact hsame hD'
      · rename_i e _ _ E hE
        split_ifs at hD'
        · by_cases hde : d = e
          · subst hde
            obtain rfl : D = E := Option.some.inj (hD.symm.trans hE)
            obtain rfl : { D with live := false } = D' := by simpa using hD'
            exact ⟨rfl, rfl, rfl⟩
          · rw [set_directory_of_ne root hde] at hD'
            exact hsame hD'
        · exact hsame hD'
  | unlinkArtifact e path => cases hq
  | removeArtifactRoot e => cases hq
  | unlinkPrepared e => cases hq
  | unlinkRequest e => cases hq
  | _ => exact hsame hD'

end Root

namespace Store

variable {Proc : Type} [DecidableEq Proc] {sha : ContentSha256} {a : ActionId}

/-- What a call has achieved when it returns. -/
def Achieves (sha : ContentSha256) (p : Proc) (n : Nat) : Operation → Root Proc → Prop
  | .claimSubmission a, root =>
    ∃ d c, root.At p a d (·.submissionClaim = some ⟨c, n⟩)
  | .claimExecution a, root =>
    ∃ d c, root.At p a d (·.executionClaim = some ⟨c, n⟩)
  | .discardUnacknowledged request, root =>
    ∃ r d, withRequestHash sha request = .ok r ∧ root.Removed d r
  | _, _ => True

/-- Every call of the store keeps its protocol. -/
theorem verified (sha : ContentSha256) : Verified (machine Proc sha) Root.protocol
    fun p n op _ => .returning fun _ root => Achieves sha p n op root where
  meets p n op root hs := by
    cases op with
    | createRequest request artifacts =>
      exact (createRequest_does sha hs).bind hs fun _ _ _ _ _ _ _ => trivial
    | claimSubmission a =>
      refine (claimSubmission_does sha hs).bind hs fun c t _ _ hat u hu => ?_
      obtain ⟨d, hat⟩ := hat
      exact ⟨d, c, hat.later (fun D D' hev h => hev.submission _ h) hu⟩
    | claimExecution a =>
      refine (claimExecution_does sha hs).bind hs fun c t _ _ hat u hu => ?_
      obtain ⟨d, hat⟩ := hat
      exact ⟨d, c, hat.later (fun D D' hev h => hev.execution _ h) hu⟩
    | createStopIntent a l =>
      exact (createStopIntent_does sha hs).bind hs fun _ _ _ _ _ _ _ => trivial
    | writeResult result =>
      exact (writeResult_does sha hs).bind hs fun _ _ _ _ _ _ _ => trivial
    | discardUnacknowledged request =>
      refine (discardUnacknowledged_does sha hs).bind hs fun _ t _ _ hgone u hu => ?_
      obtain ⟨r, d, D, hr, hD, hremoved⟩ := hgone
      exact ⟨r, d, hr, (Root.stable_removed r).known hD hremoved hu.evolves⟩
    | readRequest a => exact (readRequest_does hs).bind hs fun _ _ _ _ _ _ _ => trivial
    | readSubmissionClaim a =>
      exact (readSubmissionClaim_does hs).bind hs fun _ _ _ _ _ _ _ => trivial
    | readExecutionClaim a =>
      exact (readExecutionClaim_does hs).bind hs fun _ _ _ _ _ _ _ => trivial
    | readStopIntent a => exact (readStopIntent_does hs).bind hs fun _ _ _ _ _ _ _ => trivial
    | readResult a => exact (readResult_does hs).bind hs fun _ _ _ _ _ _ _ => trivial
    | close =>
      exact fun t ht => ⟨trivial, ht.inv.perform n trivial, fun _ _ => trivial⟩

/-! ### Which calls remove entries -/

section Removing

theorem reading_keeps {q : Access} (hq : q.reading = true) : q.removing = false := by
  cases q with
  | unlinkArtifact d path => cases hq
  | removeArtifactRoot d => cases hq
  | unlinkPrepared d => cases hq
  | unlinkRequest d => cases hq
  | _ => rfl

variable {α : Type} {prog : StoreProgram α}

theorem keeps_of_reading (h : prog.Uses (·.reading = true)) : prog.Uses (·.removing = false) :=
  h.mono fun _ => reading_keeps

theorem createRequest_keeps (request : TransactionRequest)
    (artifacts : List TransactionArtifact) :
    (createRequest sha request artifacts).Uses (·.removing = false) := by
  refine (Program.Uses.lift _).bind fun artifacts => (Program.Uses.lift _).bind fun r => ?_
  refine Program.Uses.bind (Program.Uses.handle (keeps_of_reading actionDescriptor_reading)
    fun e => ?_) fun d => ?_
  · cases e with
    | fileNotFound =>
      exact Program.Uses.bind ⟨rfl, fun _ => trivial⟩ fun _ =>
        keeps_of_reading actionDescriptor_reading
    | _ => trivial
  · refine (keeps_of_reading readRequestAt_reading).bind fun existing => ?_
    refine (keeps_of_reading readBoundRecordAt_reading).bind fun _ => ?_
    refine (Program.Uses.lift _).bind fun _ => (Program.Uses.require ..).bind fun _ => ?_
    dsimp only
    split
    · exact (keeps_of_reading validateArtifactsAt_reading).bind fun _ => trivial
    · trivial

theorem alreadyClaimed_keeps {d : Nat} {r : TransactionRequest} {kind : BoundRecordKind}
    {message : String} :
    (alreadyClaimed d r kind message : StoreProgram α).Uses (·.removing = false) :=
  (keeps_of_reading readBoundRecordAt_reading).bind fun _ =>
    (Program.Uses.lift _).bind fun _ => trivial

theorem install_uses {q : Access} {k : q.Reply → StoreProgram α} (hq : q.removing = false)
    (hk : ∀ x, (k x).Uses (·.removing = false)) :
    (access q >>= k).Uses (·.removing = false) :=
  ⟨hq, hk⟩

theorem claimSubmission_keeps : (claimSubmission sha a).Uses (·.removing = false) := by
  refine (keeps_of_reading readRequest_reading).bind fun r => ?_
  refine (keeps_of_reading actionDescriptor_reading).bind fun d => install_uses rfl fun x => ?_
  cases x with
  | fileExists => exact alreadyClaimed_keeps
  | _ => trivial

theorem claimExecution_keeps : (claimExecution sha a).Uses (·.removing = false) := by
  refine (keeps_of_reading readRequest_reading).bind fun r => ?_
  refine (keeps_of_reading requireSubmission_reading).bind fun _ => ?_
  refine (keeps_of_reading actionDescriptor_reading).bind fun d => install_uses rfl fun x => ?_
  cases x with
  | fileExists => exact alreadyClaimed_keeps
  | _ => trivial

theorem createStopIntent_keeps {l : ActionLifecycle} :
    (createStopIntent sha a l).Uses (·.removing = false) := by
  refine (keeps_of_reading readRequest_reading).bind fun r => ?_
  refine (keeps_of_reading requireSubmission_reading).bind fun _ => ?_
  refine (Program.Uses.lift _).bind fun i => ?_
  refine (keeps_of_reading actionDescriptor_reading).bind fun d => install_uses rfl fun x => ?_
  cases x with
  | fileExists =>
    exact (keeps_of_reading readStopIntent_reading).bind fun _ =>
      (Program.Uses.require ..).bind fun _ => trivial
  | _ => trivial

theorem writeResult_keeps {result : TransactionResult} :
    (writeResult sha result).Uses (·.removing = false) := by
  refine (keeps_of_reading readRequest_reading).bind fun r => ?_
  refine (Program.Uses.lift _).bind fun x => (Program.Uses.lift _).bind fun _ => ?_
  refine (keeps_of_reading validateResultAuthorization_reading).bind fun _ => ?_
  refine (keeps_of_reading actionDescriptor_reading).bind fun d => install_uses rfl fun y => ?_
  cases y with
  | fileExists =>
    exact (keeps_of_reading readResult_reading).bind fun _ =>
      (Program.Uses.require ..).bind fun _ => trivial
  | _ => trivial

/-- Only a discard removes entries. -/
theorem program_uses (op : Operation) : (program sha op).Uses fun q =>
    q.removing = true → ∃ request, op = .discardUnacknowledged request := by
  have hkeeps : ∀ {α : Type} {prog : StoreProgram α} {f : α → StoreProgram Value},
      prog.Uses (·.removing = false) → (∀ x, ∃ v, f x = .done v) →
      (prog >>= f).Uses fun q => q.removing = true → ∃ request,
        op = .discardUnacknowledged request := by
    intro α prog f hp hf
    refine (hp.mono fun q hq hr => ?_).bind fun x => ?_
    · rw [hq] at hr
      cases hr
    · obtain ⟨v, hv⟩ := hf x
      rw [hv]
      trivial
  cases op with
  | createRequest request artifacts =>
    exact hkeeps (createRequest_keeps request artifacts) fun _ => ⟨_, rfl⟩
  | claimSubmission a => exact hkeeps claimSubmission_keeps fun _ => ⟨_, rfl⟩
  | claimExecution a => exact hkeeps claimExecution_keeps fun _ => ⟨_, rfl⟩
  | createStopIntent a l => exact hkeeps createStopIntent_keeps fun _ => ⟨_, rfl⟩
  | writeResult result => exact hkeeps writeResult_keeps fun _ => ⟨_, rfl⟩
  | discardUnacknowledged request => exact Program.Uses.all (fun _ _ => ⟨request, rfl⟩) _
  | readRequest a => exact hkeeps (keeps_of_reading readRequest_reading) fun _ => ⟨_, rfl⟩
  | readSubmissionClaim a =>
    exact hkeeps (keeps_of_reading readSubmissionClaim_reading) fun _ => ⟨_, rfl⟩
  | readExecutionClaim a =>
    exact hkeeps (keeps_of_reading readExecutionClaim_reading) fun _ => ⟨_, rfl⟩
  | readStopIntent a => exact hkeeps (keeps_of_reading readStopIntent_reading) fun _ => ⟨_, rfl⟩
  | readResult a => exact hkeeps (keeps_of_reading readResult_reading) fun _ => ⟨_, rfl⟩
  | close => exact ⟨nofun, fun _ => trivial⟩

end Removing

section Races

variable {ms : List (Interleaving.Event (Root Proc) Proc Operation Access.Reply StoreError Value)}
  {c : Config (Root Proc) Proc Operation Access.Reply StoreError Value}

theorem account (h : Run (Machine.Init Root.Empty) (machine Proc sha).Step ms c) :
    Account Root.protocol (machine Proc sha)
      (fun p n op _ => .returning fun _ root => Achieves sha p n op root) ms c :=
  Account.of_run (verified sha) (fun _ hr => hr.consistent) h

theorem consistent_of_mem (h : Run (Machine.Init Root.Empty) (machine Proc sha).Step ms c)
    {root : Root Proc} (hr : root ∈ history ms c) : root.Consistent :=
  Account.inv_of_mem (verified sha) (fun _ hr => hr.consistent) h hr

/-- A move takes nothing from a directory, unless it is one of a discard. -/
theorem keeps_or_discards (h : Run (Machine.Init Root.Empty) (machine Proc sha).Step ms c)
    {e : Interleaving.Event (Root Proc) Proc Operation Access.Reply StoreError Value} (he : e ∈ ms)
    {d : Nat} {D D' : ActionDirectory} (hD : e.before.shared.directory d = some D)
    (hD' : e.after.shared.directory d = some D') :
    D.Keeps D' ∨ ∃ p r request, e.event = .act p ∧ e.before.running p = some r ∧
      r.op = .discardUnacknowledged request := by
  obtain ⟨newer, older, rfl⟩ := List.append_of_mem he
  obtain ⟨hrun, hstep⟩ := h.older
  have hs := (account hrun).inv
  have hsame : e.after.shared = e.before.shared → D.Keeps D' := by
    intro heq
    rw [heq] at hD'
    obtain rfl : D = D' := Option.some.inj (hD.symm.trans hD')
    exact ⟨rfl, rfl, rfl⟩
  obtain ⟨before, event, output, after⟩ := e
  dsimp only at hstep hD hD' hs hrun hsame ⊢
  cases hstep.stepped with
  | start hp => exact .inl (hsame rfl)
  | @act p n op q k hp =>
    by_cases hq : q.removing = true
    · obtain ⟨request, hop⟩ := (uses_of_run program_uses hrun hp).1 hq
      exact .inr ⟨p, _, request, rfl, hp, hop⟩
    · exact .inl (hs.keeps (by simpa using hq) hD hD')
  | returned hp => exact .inl (hsame rfl)
  | raised hp => exact .inl (hsame rfl)
  | aborted hp => exact .inl (hsame rfl)

def succeeded (op : Operation)
    (e : Interleaving.Event (Root Proc) Proc Operation Access.Reply StoreError Value) : Bool :=
  match e.output with
  | .returned _ _ op' (.ok _) => op' = op
  | _ => false

omit [DecidableEq Proc] in
theorem succeeded_iff {op : Operation}
    {e : Interleaving.Event (Root Proc) Proc Operation Access.Reply StoreError Value} :
    succeeded op e = true ↔ ∃ p n v, e.output = .returned p n op (.ok v) := by
  unfold succeeded
  constructor
  · intro hs
    split at hs
    · rename_i p n op' v ho
      obtain rfl : op' = op := by simpa using hs
      exact ⟨p, n, v, ho⟩
    · cases hs
  · rintro ⟨p, n, v, ho⟩
    simp [ho]

theorem succeeds_once (h : Run (Machine.Init Root.Empty) (machine Proc sha).Step ms c)
    {op : Operation} (hone : ∀ e ∈ ms, ∀ e' ∈ ms, ∀ p n v p' n' v',
      e.output = .returned p n op (.ok v) → e'.output = .returned p' n' op (.ok v') → n = n') :
    (ms.filter (succeeded op)).length ≤ 1 := by
  have hpair : (ms.filter (succeeded op)).Pairwise fun _ _ => False := by
    refine List.Pairwise.imp_of_mem (fun {e e'} he he' hne => ?_)
      ((Numbered.of_run h).distinct.filter _)
    obtain ⟨he, hs⟩ := List.mem_filter.mp he
    obtain ⟨he', hs'⟩ := List.mem_filter.mp he'
    obtain ⟨p, n, v, ho⟩ := succeeded_iff.mp hs
    obtain ⟨p', n', v', ho'⟩ := succeeded_iff.mp hs'
    obtain rfl := hone e he e' he' p n v p' n' v' ho ho'
    exact hne n (by rw [ho]; rfl) (by rw [ho']; rfl)
  cases hl : ms.filter (succeeded op) with
  | nil => exact Nat.zero_le _
  | cons e l =>
    cases l with
    | nil => exact Nat.le_refl _
    | cons e' l =>
      rw [hl] at hpair
      exact (List.rel_of_pairwise_cons hpair List.mem_cons_self).elim

omit [DecidableEq Proc] in
theorem name_of_submitted {root : Root Proc} (hs : root.Consistent) {d : Nat}
    {D : ActionDirectory} (hD : root.directory d = some D) (hc : D.submissionClaim.isSome) :
    root.names D.action = some d :=
  hs.live d D hD ((hs.bound d D hD).live_of_submitted hc)

theorem claimed_at_end (h : Run (Machine.Init Root.Empty) (machine Proc sha).Step ms c)
    {e : Interleaving.Event (Root Proc) Proc Operation Access.Reply StoreError Value} (he : e ∈ ms)
    {p : Proc} {d : Nat} {φ : ActionDirectory → Prop} (hφ : Root.Stable φ)
    (hat : e.after.shared.At p a d φ) :
    ∃ D, c.shared.directory d = some D ∧ D.action = a ∧ φ D := by
  obtain ⟨hp, D, hD, hφD⟩ := hat
  have hmem := after_mem_history h he
  obtain ⟨D', hD', ha⟩ := (consistent_of_mem h hmem).retained p a d hp
  obtain rfl : D' = D := Option.some.inj (hD'.symm.trans hD)
  obtain ⟨E, hE, hDE⟩ := ((account h).evolves_last hmem).2 d D' hD
  exact ⟨E, hE, hDE.action.trans ha, hφ D' E hDE hφD⟩

/-- A claim of an action succeeds at most once: the claim which it installed is still there, in
the directory which has the name of the action. -/
theorem claim_once (h : Run (Machine.Init Root.Empty) (machine Proc sha).Step ms c)
    {op : Operation} {get : ActionDirectory → Option Claim}
    (hachieves : ∀ (p : Proc) n root, Achieves sha p n op root →
      ∃ d k, root.At p a d (get · = some ⟨k, n⟩))
    (hstable : ∀ k, Root.Stable (get · = some k))
    (hget : ∀ D, D.Bound → (get D).isSome → D.submissionClaim.isSome) :
    (ms.filter (succeeded op)).length ≤ 1 := by
  refine succeeds_once h fun e he e' he' p n v p' n' v' ho ho' => ?_
  have hs := (account h).inv
  have hachieved : ∀ {e p n v}, e ∈ ms → e.output = .returned p n op (.ok v) →
      ∃ d D k, c.shared.directory d = some D ∧ get D = some ⟨k, n⟩ ∧
        c.shared.names a = some d := by
    intro e p n v he ho
    obtain ⟨_, _, hdone⟩ := (account h).returned e he p n _ v ho
    obtain ⟨d, k, hat⟩ := hachieves _ _ _ hdone
    obtain ⟨D, hD, ha, hk⟩ := claimed_at_end h he (hstable _) hat
    have hsub := hget D (hs.bound d D hD) (by simp [hk])
    exact ⟨d, D, k, hD, hk, ha ▸ name_of_submitted hs hD hsub⟩
  obtain ⟨d, D, k, hD, hk, hname⟩ := hachieved he ho
  obtain ⟨d', D', k', hD', hk', hname'⟩ := hachieved he' ho'
  obtain rfl : d = d' := Option.some.inj (hname.symm.trans hname')
  obtain rfl : D = D' := Option.some.inj (hD.symm.trans hD')
  exact congrArg Claim.call (Option.some.inj (hk.symm.trans hk'))

omit [DecidableEq Proc] in
theorem lt_of_submitted {root : Root Proc} (hs : root.Consistent) {d f : Nat}
    {D F : ActionDirectory} (hD : root.directory d = some D) (hF : root.directory f = some F)
    (ha : F.action = D.action) (hdead : D.live = false) (hc : F.submissionClaim.isSome) :
    d < f := by
  have hlive := (hs.bound f F hF).live_of_submitted hc
  rcases Nat.lt_trichotomy d f with hdf | rfl | hfd
  · exact hdf
  · obtain rfl : D = F := Option.some.inj (hD.symm.trans hF)
    cases hlive.symm.trans hdead
  · cases hlive.symm.trans (hs.ordered f d F D hfd hF hD ha)

theorem withRequestHash_actionId {request r : TransactionRequest}
    (h : withRequestHash sha request = .ok r) : r.actionId = request.actionId := by
  unfold withRequestHash at h
  dsimp only at h
  split_ifs at h
  cases h
  rfl

/-- A discard which succeeded has removed a directory which was published with its request, before
the submission of the action was claimed anywhere. -/
theorem discarded_unclaimed (h : Run (Machine.Init Root.Empty) (machine Proc sha).Step ms c)
    {e : Interleaving.Event (Root Proc) Proc Operation Access.Reply StoreError Value} (he : e ∈ ms)
    {p : Proc} {n : Nat} {request : TransactionRequest} {v : Value}
    (ho : e.output = .returned p n (.discardUnacknowledged request) (.ok v)) :
    ∃ r d, withRequestHash sha request = .ok r ∧ e.after.shared.Removed d r ∧
      ∀ root ∈ history ms c, ∀ f F, root.directory f = some F → F.action = request.actionId →
        F.submissionClaim.isSome → d < f ∧ root.Removed d r := by
  obtain ⟨_, _, r, d, hr, hgone⟩ := (account h).returned e he p n _ v ho
  refine ⟨r, d, hr, hgone, fun root hroot f F hF ha hc => ?_⟩
  obtain ⟨D, hD, hor, hdead⟩ := hgone
  have hafter := after_mem_history h he
  have hs := consistent_of_mem h hafter
  have hroots := consistent_of_mem h hroot
  have hact : F.action = D.action := by
    rw [ha, ← (hs.bound d D hD).origin, hor, withRequestHash_actionId hr]
  rcases (account h).linear hroot hafter with hev | hev
  · -- the claim was already there before the return, so the directory was removed before it
    obtain ⟨F', hF', hFF'⟩ := hev.2 f F hF
    have hdf := lt_of_submitted hs hD hF' (hFF'.action.trans hact) hdead (hFF'.submitted hc)
    have hknown : d < root.published := hdf.trans ((hroots.known f).mp (by simp [hF]))
    obtain ⟨E, hE⟩ := Option.isSome_iff_exists.mp ((hroots.known d).mpr hknown)
    obtain ⟨D', hD', hED⟩ := hev.2 d E hE
    obtain rfl : D' = D := Option.some.inj (hD'.symm.trans hD)
    have hEF : E.action = F.action := hED.action.symm.trans hact.symm
    exact ⟨hdf, E, hE, hED.origin.symm.trans hor, hroots.ordered d f E F hdf hE hF hEF⟩
  · obtain ⟨E, hE, horE, hEdead⟩ := (Root.stable_removed r).known hD ⟨hor, hdead⟩ hev
    have hEF : F.action = E.action := by
      obtain ⟨E', hE', hDE'⟩ := hev.2 d D hD
      obtain rfl : E' = E := Option.some.inj (hE'.symm.trans hE)
      exact hact.trans hDE'.action.symm
    exact ⟨lt_of_submitted hroots hE hF hEF hEdead hc, E, hE, horE, hEdead⟩

/-- The protocol of the store, for every interleaving of the calls of several processes. Of the
records of a directory only requests, preparations and artifacts go away, and only in a discard.
A submission of the action can only be claimed before a discard of it returns where the action
was published again after the discard had removed its directory. -/
theorem transaction_protocol
    (h : Run (Machine.Init Root.Empty) (machine Proc sha).Step ms c) :
    ((history ms c).Pairwise fun later earlier => earlier.Evolves later) ∧
    (∀ e ∈ ms, ∀ d D D', e.before.shared.directory d = some D →
      e.after.shared.directory d = some D' → D.Keeps D' ∨
        ∃ p r request, e.event = .act p ∧ e.before.running p = some r ∧
          r.op = .discardUnacknowledged request) ∧
    (∀ a, (ms.filter (succeeded (.claimSubmission a))).length ≤ 1 ∧
      (ms.filter (succeeded (.claimExecution a))).length ≤ 1) ∧
    (∀ root ∈ history ms c, ∀ d D, root.directory d = some D →
      (D.executionClaim.isSome ∨ D.stopIntent.isSome ∨ D.result.isSome →
        D.submissionClaim.isSome) ∧
      (∀ r ∈ D.result, r.outcome = .completed → D.executionClaim.isSome) ∧
      (∀ b ∈ D.bindings, b = D.origin.binding) ∧ D.origin.actionId = D.action) ∧
    (∀ e ∈ ms, ∀ p n request v,
      e.output = .returned p n (.discardUnacknowledged request) (.ok v) →
        ∃ r d, withRequestHash sha request = .ok r ∧ e.after.shared.Removed d r ∧
          ∀ root ∈ history ms c, ∀ f F, root.directory f = some F →
            F.action = request.actionId → F.submissionClaim.isSome →
              d < f ∧ root.Removed d r) := by
  refine ⟨(account h).past, fun e he d D D' hD hD' => keeps_or_discards h he hD hD',
    fun a => ⟨?_, ?_⟩, fun root hroot d D hD => ?_,
    fun e he p n request v ho => discarded_unclaimed h he ho⟩
  · exact claim_once (a := a) h (fun _ _ _ h => h)
      (fun _ D D' hev h => hev.submission _ h) fun D _ h => h
  · exact claim_once (a := a) h (fun _ _ _ h => h)
      (fun _ D D' hev h => hev.execution _ h) fun D hb h => by
        obtain ⟨k, hk⟩ := Option.isSome_iff_exists.mp h
        exact (hb.execution k hk).2
  · have hb := (consistent_of_mem h hroot).bound d D hD
    refine ⟨?_, fun r hr => (hb.result r hr).2.2, fun b => hb.bindings, hb.origin⟩
    rintro (hx | hx | hx)
    · obtain ⟨k, hk⟩ := Option.isSome_iff_exists.mp hx
      exact (hb.execution k hk).2
    · obtain ⟨i, hi⟩ := Option.isSome_iff_exists.mp hx
      exact (hb.stopIntent i hi).2
    · obtain ⟨r, hr⟩ := Option.isSome_iff_exists.mp hx
      exact (hb.result r hr).2.1

end Races

end Store

namespace Scenario

/-! The application of a profile, and a call which discards it just before another process
publishes it again. -/

def workerAction : ActionId := ⟨⟨1⟩, .application, 1, Nat.one_pos⟩

theorem dock_nonblank : nonempty "dock" = true := by decide

theorem external_nonblank : nonempty "HDMI-1" = true := by decide

def external : Text := ⟨"HDMI-1", external_nonblank⟩

def dockTopology : TopologyFields := ⟨[external], [external], [external], []⟩

theorem dockTopology_accepted : dockTopology.refusal = none := by decide +kernel

def workerFields : RequestFields where
  actionId := workerAction
  actionKind := .application
  unitName := ⟨"monitor-apply@1.service", by decide⟩
  physicalEpoch := 0
  physicalToken := ⟨⟨"token", by decide⟩⟩
  admittedEventGeneration := 1
  observationKey := ⟨⟨"key", by decide⟩⟩
  outputMapping := [⟨external, external⟩]
  expectedTopology := ⟨dockTopology, dockTopology_accepted⟩
  profile := some ⟨"dock", dock_nonblank⟩

theorem workerFields_accepted : workerFields.refusal = none := by decide +kernel

def workerRequest : TransactionRequest := ⟨⟨workerFields, workerFields_accepted⟩, ""⟩

def constantDigest (c : Char) : String := "sha256:" ++ String.ofList (List.replicate 64 c)

def constantSha256 : ContentSha256 :=
  ⟨fun _ => constantDigest '0', fun _ => constantDigest '1', fun _ => constantDigest '2',
    fun _ => constantDigest '3'⟩

def idleStore : Config (Root Bool) Bool Store.Operation Access.Reply StoreError Store.Value :=
  ⟨⟨0, fun _ => none, fun _ => none, fun _ _ => none⟩, 0, fun _ => none⟩

def calling (p : Bool) (op : Store.Operation) (accesses : Nat) :
    List (Label Bool Store.Operation) :=
  .start p op :: List.replicate accesses (.act p) ++ [.finish p]

/-- The discard removes the directory and has yet to close its descriptor, when the other process
publishes the request again and claims its submission. -/
def republished : List (Label Bool Store.Operation) :=
  calling true (.createRequest workerRequest []) 9 ++
  .start false (.discardUnacknowledged workerRequest) :: List.replicate 12 (.act false) ++
  calling true .close 1 ++
  calling true (.createRequest workerRequest []) 9 ++
  calling true (.claimSubmission workerAction) 9 ++
  [.act false, .finish false]

end Scenario

open Scenario in
theorem idleStore_run : Run (Machine.Init Root.Empty) (Store.machine Bool constantSha256).Step []
    idleStore :=
  .start ⟨⟨rfl, fun _ => rfl, fun _ => rfl, fun _ _ => rfl⟩, fun _ => rfl⟩

open Scenario in
/-- The newest move of the schedule returns from the discard, after which the first directory has
lost its request and the second one is submitted. -/
theorem republished_exec : ((Store.machine Bool constantSha256).exec republished idleStore).any
    (fun x => (x.1.any fun e => (e.before.shared.directory 0).any (·.request.isSome)) &&
      x.1.head?.any fun e => Store.succeeded (.discardUnacknowledged workerRequest) e &&
        ((e.before.shared.directory 0).any (·.request.isNone) &&
        (e.before.shared.directory 1).any fun D =>
          D.action = workerAction ∧ D.submissionClaim.isSome)) = true := by
  decide +kernel

open Scenario in
/-- A discard returns with success after the submission of its action has been claimed. The request
which it removed is in its directory no more. -/
theorem discard_returns_after_submission : ∃ ms c,
    Run (Machine.Init Root.Empty) (Store.machine Bool constantSha256).Step ms c ∧
      (∃ e ∈ ms, ∃ D, e.before.shared.directory 0 = some D ∧ D.request.isSome = true) ∧
      ∃ e ∈ ms, Store.succeeded (.discardUnacknowledged workerRequest) e = true ∧
        (∃ D, e.before.shared.directory 0 = some D ∧ D.request.isNone = true) ∧
        ∃ D, e.before.shared.directory 1 = some D ∧ D.action = workerRequest.actionId ∧
          D.submissionClaim.isSome = true := by
  obtain ⟨⟨ms, c⟩, hexec, hvalues⟩ := (Option.any_eq_true _ _).mp republished_exec
  obtain ⟨hpresent, hhead⟩ := Bool.and_eq_true_iff.mp hvalues
  obtain ⟨first, hfirst, hrequest⟩ := List.any_eq_true.mp hpresent
  obtain ⟨e, he, hvalues⟩ := (Option.any_eq_true _ _).mp hhead
  obtain ⟨hsucceeded, hvalues⟩ := Bool.and_eq_true_iff.mp hvalues
  obtain ⟨hremoved, hclaimed⟩ := Bool.and_eq_true_iff.mp hvalues
  obtain ⟨D, hD, hclaim⟩ := (Option.any_eq_true _ _).mp hclaimed
  have hrun := Machine.run_of_exec idleStore_run hexec
  rw [List.append_nil] at hrun
  exact ⟨ms, c, hrun, ⟨first, hfirst, (Option.any_eq_true _ _).mp hrequest⟩, e,
    List.mem_of_head? he, hsucceeded, (Option.any_eq_true _ _).mp hremoved, D, hD,
    of_decide_eq_true hclaim⟩

open Scenario in
theorem transaction_protocol_republished : ∃ ms c,
    Run (Machine.Init Root.Empty) (Store.machine Bool constantSha256).Step ms c ∧
      (∃ e ∈ ms, Store.succeeded (.discardUnacknowledged workerRequest) e = true) ∧
      (ms.filter (Store.succeeded (.claimSubmission workerAction))).length ≤ 1 := by
  obtain ⟨⟨ms, c⟩, hexec, hvalues⟩ := (Option.any_eq_true _ _).mp republished_exec
  obtain ⟨e, he, hvalues⟩ := (Option.any_eq_true _ _).mp (Bool.and_eq_true_iff.mp hvalues).2
  have hrun := Machine.run_of_exec idleStore_run hexec
  rw [List.append_nil] at hrun
  exact ⟨ms, c, hrun, ⟨e, List.mem_of_head? he, (Bool.and_eq_true_iff.mp hvalues).1⟩,
    ((Store.transaction_protocol hrun).2.2.1 workerAction).1⟩

end MonitorController
