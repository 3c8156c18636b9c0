import MonitorController.Transactions.Protocol

/-! # The operations of the store keep its protocol

Each operation is specified once. What it learns from its reads about the
directory whose descriptor it retains stays true while others move, and that is
what authorizes the records which it installs.
-/

namespace MonitorController

open Programs Interleaving Protocol

/-- The access reads: it changes nothing but the descriptors of its process, by adding one. -/
def Access.reading : Access → Bool
  | .openAction _ | .validateDirectory _ | .readRequest _ | .readBoundRecord _ _
  | .readStopIntent _ | .readResult _ | .artifactPaths _ | .readArtifact _ _ _
  | .listDirectory _ => true
  | _ => false

namespace Root

variable {Proc : Type} {root root' : Root Proc} {p : Proc} {a : ActionId} {d : Nat}
  {φ ψ : ActionDirectory → Prop}

/-- The directory whose descriptor the process retains for the action. -/
def At (p : Proc) (a : ActionId) (d : Nat) (φ : ActionDirectory → Prop) (root : Root Proc) :
    Prop :=
  root.descriptors p a = some d ∧ ∃ D, root.directory d = some D ∧ φ D

/-- What a directory keeps however it evolves. -/
def Stable (φ : ActionDirectory → Prop) : Prop :=
  ∀ D D', D.Evolves D' → φ D → φ D'

theorem At.mono (h : root.At p a d φ) (hφ : ∀ D, φ D → ψ D) : root.At p a d ψ := by
  obtain ⟨hp, D, hd, hD⟩ := h
  exact ⟨hp, D, hd, hφ D hD⟩

theorem At.directory (h : root.At p a d φ) : ∀ D ∈ root.directory d, φ D := by
  rintro D hD
  obtain ⟨-, D', hD', hφ⟩ := h
  exact Option.some.inj (hD'.symm.trans hD) ▸ hφ

theorem At.and (h : root.At p a d φ) (h' : root.At p a d ψ) : root.At p a d fun D => φ D ∧ ψ D := by
  obtain ⟨hp, D, hd, hD⟩ := h
  obtain ⟨-, D', hd', hD'⟩ := h'
  obtain rfl : D = D' := Option.some.inj (hd.symm.trans hd')
  exact ⟨hp, D, hd, hD, hD'⟩

theorem At.later (hφ : Stable φ) (h : root.At p a d φ) (hl : protocol.Later p root root') :
    root'.At p a d φ := by
  obtain ⟨hp, D, hd, hD⟩ := h
  obtain ⟨D', hD', hev⟩ := hl.evolves.2 d D hd
  exact ⟨(congrFun hl.own a).trans hp, D', hD', hφ D D' hev hD⟩

theorem stable_origin (r : TransactionRequest) : Stable (·.origin = r) :=
  fun _ _ hev h => hev.origin.trans h

theorem stable_submitted : Stable (·.submissionClaim.isSome) :=
  fun _ _ hev h => hev.submitted h

theorem stable_executing : Stable (·.executionClaim.isSome) :=
  fun _ _ hev h => hev.executing h

theorem stable_removed (r : TransactionRequest) :
    Stable fun D => D.origin = r ∧ D.live = false := by
  intro D D' hev h
  refine ⟨hev.origin.trans h.1, ?_⟩
  by_contra hl
  simp [hev.live (by simpa using hl)] at h

theorem Stable.known (hφ : Stable φ) {D : ActionDirectory} (hD : root.directory d = some D)
    (h : φ D) (hev : root.Evolves root') : ∃ D', root'.directory d = some D' ∧ φ D' := by
  obtain ⟨D', hD', hDD'⟩ := hev.2 d D hD
  exact ⟨D', hD', hφ D D' hDD' h⟩

theorem Stable.and (hφ : Stable φ) (hψ : Stable ψ) : Stable fun D => φ D ∧ ψ D :=
  fun D D' hev h => ⟨hφ D D' hev h.1, hψ D D' hev h.2⟩

theorem Stable.imp {c : Prop} (hφ : Stable φ) : Stable fun D => c → φ D :=
  fun D D' hev h hc => hφ D D' hev (h hc)

variable [DecidableEq Proc] {n : Nat}

/-- Reading keeps what is known about a retained directory. -/
theorem At.perform {q : Access} (hq : q.reading = true) (h : root.At p a d φ) :
    (Root.perform p n q root).2.At p a d φ := by
  cases q with
  | openAction b =>
    obtain ⟨hp, D, hd, hD⟩ := h
    change (root.openAction p b).2.At p a d φ
    unfold Root.openAction
    split
    · split
      · exact ⟨hp, D, hd, hD⟩
      · exact ⟨hp, D, hd, hD⟩
    · rename_i hnone
      split
      · exact ⟨hp, D, hd, hD⟩
      · have hab : a ≠ b := by
          rintro rfl
          rw [hnone] at hp
          cases hp
        exact ⟨by simp [hab, hp], D, hd, hD⟩
  | validateDirectory d => exact h
  | readRequest d => exact h
  | readBoundRecord d kind => exact h
  | readStopIntent d => exact h
  | readResult d => exact h
  | artifactPaths d => exact h
  | readArtifact d path executable => exact h
  | listDirectory d => exact h
  | _ => cases hq

end Root

namespace Store

open Root

variable {Proc : Type} [DecidableEq Proc] {root : Root Proc} {p : Proc} {n d : Nat} {a : ActionId}

/-- A specified operation of one process in its numbered call. -/
abbrev Does (p : Proc) (n : Nat) {α : Type} (Q : α → Root Proc → Prop) (prog : StoreProgram α)
    (root : Root Proc) : Prop :=
  protocol.Meets p (Root.perform p n) (.returning Q) prog root

namespace Does

variable {α : Type} {Q : α → Root Proc → Prop} {prog : StoreProgram α}

theorem raise {e : StoreError} : Does p n Q (.raise e) root := fun _ _ => trivial

theorem mono {R : α → Root Proc → Prop} (h : Does p n Q prog root) (hQR : ∀ a t, Q a t → R a t) :
    Does p n R prog root :=
  Meets.weaken h hQR

theorem ask {q : Access} {Q : q.Reply → Root Proc → Prop}
    (h : ∀ t, protocol.Later p root t → protocol.Guarantees p t (Root.perform p n q t).2 ∧
      ∀ u, protocol.Later p (Root.perform p n q t).2 u → Q (Root.perform p n q t).1 u) :
    Does p n Q (access q) root :=
  Meets.ask fun t ht => ⟨trivial, h t ht⟩

theorem lift {x : Except StoreError α}
    (h : ∀ a, x = .ok a → ∀ t, protocol.Later p root t → Q a t) :
    Does p n Q (Program.lift x) root :=
  Meets.lift h fun _ _ _ _ => trivial

theorem require {c : Prop} [Decidable c] {e : StoreError} {f : Unit → StoreProgram α}
    (h : c → Does p n Q (f ()) root) : Does p n Q (Program.require c e >>= f) root :=
  Meets.require h fun _ _ _ => trivial

end Does

theorem Does.frame {α : Type} {Q : α → Root Proc → Prop} {prog : StoreProgram α}
    {φ : ActionDirectory → Prop} (h : Does p n Q prog root) (hu : prog.Uses (·.reading = true))
    (hφ : Stable φ) (hat : root.At p a d φ) :
    Does p n (fun x t => Q x t ∧ t.At p a d φ) prog root :=
  (Meets.frame (Meets.uses h hu) hat (fun _ _ ht hl => ht.later hφ hl)
    fun _ _ hq ht => ht.perform hq.2).mono (fun _ _ _ => trivial) (fun _ _ hx => hx)
      fun _ _ _ => trivial

theorem Does.attempt {α : Type} {Q : α → Root Proc → Prop} {prog : StoreProgram (Stored α)}
    (h : Does p n (fun x t => ∀ r, x = .ok r → Q r t) prog root) :
    Does p n Q (Store.attempt prog) root := by
  induction prog generalizing root with
  | done x =>
    cases x with
    | error e => exact Does.raise
    | ok r => exact fun t ht => h t ht r rfl
  | raise e => exact Does.raise
  | request q k ih => exact fun t ht => ⟨trivial, (h t ht).2.1, ih _ (h t ht).2.2⟩

theorem readRegularFile_does {α : Type} {F : Root Proc → Prop}
    {Q : α → Root Proc → Prop} {prog : StoreProgram (Stored α)} (hs : root.Consistent)
    (hF : F root) (hlater : ∀ t u, F t → protocol.Later p t u → F u)
    (hQ : ∀ r t u, Q r t → protocol.Later p t u → Q r u)
    (hprog : ∀ t, t.Consistent → F t → Does p n (fun x u => ∀ r, x = .ok r → Q r u) prog t) :
    Does p n Q (readRegularFile d prog) root := by
  have hvalidate : ∀ {G : Root Proc → Prop} {t : Root Proc}, G t →
      (∀ t u, G t → protocol.Later p t u → G u) →
      Does p n (fun _ => G) (Store.attempt (access (.validateDirectory d))) t := by
    intro G t hG hl
    refine Does.attempt (Does.ask fun u hu => ⟨.refl hu.inv, fun v hv r _ => ?_⟩)
    exact hl u v (hl t u hG hu) hv
  unfold readRegularFile
  refine (hvalidate hF hlater).bind hs fun _ t ht _ hFt => ?_
  refine ((hprog t ht hFt).attempt).bind ht fun r u hu _ hr => ?_
  refine (hvalidate hr (hQ r)).bind hu fun _ v _ _ hv => ?_
  exact fun w hw => hQ r v w hv hw

theorem actionDescriptor_does :
    Does p n (fun d t => t.descriptors p a = some d) (actionDescriptor a) root := by
  refine Does.attempt (Does.ask fun t ht => ⟨ht.inv.openAction a, fun u hu d hd => ?_⟩)
  refine (congrFun hu.own a).trans ?_
  change (t.openAction p a).1 = .ok d at hd
  change (t.openAction p a).2.descriptors p a = some d
  unfold Root.openAction at hd ⊢
  split at hd
  · rename_i e he
    split at hd
    · rename_i hl
      cases hd
      simp [he, hl]
    · cases hd
  · rename_i hnone
    split at hd
    · cases hd
    · rename_i e he
      cases hd
      simp

omit [DecidableEq Proc] in
theorem read_eq_ok {α : Type} {f : ActionDirectory → Option α} {r : α} :
    root.read d f = .ok r ↔ ∃ D, root.directory d = some D ∧ f D = some r := by
  unfold Root.read
  cases hd : root.directory d with
  | none => simp
  | some D => cases hf : f D <;> simp [hf]

/-- The program is one read of a record of the directory. -/
def Reads (p : Proc) (n : Nat) {α : Type} (d : Nat) (f : ActionDirectory → Option α)
    (prog : StoreProgram (Stored α)) : Prop :=
  ∀ (root : Root Proc) (Q : Stored α → Root Proc → Prop),
    (∀ t, protocol.Later p root t → ∀ u, protocol.Later p t u → Q (t.read d f) u) →
      Does p n Q prog root

theorem reads_request (d : Nat) : Reads p n d (·.request) (access (.readRequest d)) :=
  fun _ _ h => Does.ask fun t ht => ⟨.refl ht.inv, h t ht⟩

theorem reads_bound (d : Nat) (kind : BoundRecordKind) :
    Reads p n d (·.bound kind) (access (.readBoundRecord d kind)) :=
  fun _ _ h => Does.ask fun t ht => ⟨.refl ht.inv, h t ht⟩

theorem reads_stopIntent (d : Nat) : Reads p n d (·.stopIntent) (access (.readStopIntent d)) :=
  fun _ _ h => Does.ask fun t ht => ⟨.refl ht.inv, h t ht⟩

theorem reads_result (d : Nat) : Reads p n d (·.result) (access (.readResult d)) :=
  fun _ _ h => Does.ask fun t ht => ⟨.refl ht.inv, h t ht⟩

theorem Reads.file {α : Type} {f : ActionDirectory → Option α}
    {prog : StoreProgram (Stored α)} {φ : α → ActionDirectory → Prop} (h : Reads p n d f prog)
    (hs : root.Consistent) (hd : root.descriptors p a = some d) (hφ : ∀ r, Stable (φ r))
    (hread : ∀ D r, D.Bound → f D = some r → φ r D) :
    Does p n (fun r t => t.At p a d (φ r)) (readRegularFile d prog) root := by
  refine readRegularFile_does (F := fun t => t.descriptors p a = some d) hs hd
    (fun t u ht hl => (congrFun hl.own a).trans ht) (fun r t u ht hl => ht.later (hφ r) hl)
    fun t ht hdt => h t _ fun u hu v hv r hr => ?_
  obtain ⟨D, hD, hfr⟩ := read_eq_ok.mp hr
  have hat : u.At p a d (φ r) :=
    ⟨(congrFun hu.own a).trans hdt, D, hD, hread D r (hu.inv.bound d D hD) hfr⟩
  exact hat.later (hφ r) hv

theorem readRequestAt_does (hs : root.Consistent)
    (hd : root.descriptors p a = some d) :
    Does p n (fun r t => r.actionId = a ∧ t.At p a d (·.origin = r)) (readRequestAt d a) root := by
  unfold readRequestAt
  refine ((reads_request d).file (a := a) hs hd stable_origin fun D r hb hr =>
    (hb.request r hr).symm).bind hs fun r t ht _ hat => Does.require fun ha => ?_
  exact fun u hu => ⟨ha, hat.later (stable_origin r) hu⟩

/-- A claim which has been read is one of the claims of the directory. -/
def Claimed (kind : BoundRecordKind) (D : ActionDirectory) : Prop :=
  (kind = .submissionClaim → D.submissionClaim.isSome) ∧
    (kind = .executionClaim → D.executionClaim.isSome)

theorem stable_claimed (kind : BoundRecordKind) : Stable (Claimed kind) :=
  stable_submitted.imp.and stable_executing.imp

theorem claimed_of_bound {kind : BoundRecordKind} {D : ActionDirectory}
    {r : BoundTransactionRecord} (h : D.bound kind = some r) : Claimed kind D := by
  constructor
  · rintro rfl
    obtain ⟨c, hc, -⟩ := Option.map_eq_some_iff.mp h
    exact Option.isSome_iff_exists.mpr ⟨c, hc⟩
  · rintro rfl
    obtain ⟨c, hc, -⟩ := Option.map_eq_some_iff.mp h
    exact Option.isSome_iff_exists.mpr ⟨c, hc⟩

theorem readBoundRecordAt_does {kind : BoundRecordKind} (hs : root.Consistent)
    (hd : root.descriptors p a = some d) :
    Does p n (fun _ t => t.At p a d (Claimed kind)) (readBoundRecordAt d kind) root := by
  unfold readBoundRecordAt
  refine ((reads_bound d kind).file (a := a) hs hd (fun _ => stable_claimed kind)
    fun D r _ hr => claimed_of_bound hr).bind hs fun r t ht _ hat => Does.require fun _ => ?_
  exact fun u hu => hat.later (stable_claimed kind) hu

/-! ### Operations which only read -/

section Reading

variable {α : Type}

theorem access_reading {q : Access} (hq : q.reading = true) :
    (access q).Uses (·.reading = true) := ⟨hq, fun _ => trivial⟩

theorem attempt_reading {prog : StoreProgram (Stored α)} (h : prog.Uses (·.reading = true)) :
    (Store.attempt prog).Uses (·.reading = true) :=
  h.bind .lift

theorem actionDescriptor_reading : (actionDescriptor a).Uses (·.reading = true) :=
  attempt_reading (access_reading rfl)

theorem readRegularFile_reading {prog : StoreProgram (Stored α)}
    (h : prog.Uses (·.reading = true)) : (readRegularFile d prog).Uses (·.reading = true) :=
  (attempt_reading (access_reading rfl)).bind fun _ => (attempt_reading h).bind fun _ =>
    (attempt_reading (access_reading rfl)).bind fun _ => trivial

theorem readRequestAt_reading : (readRequestAt d a).Uses (·.reading = true) :=
  (readRegularFile_reading (access_reading rfl)).bind fun _ => (Program.Uses.require ..).bind fun _ => trivial

theorem readBoundRecordAt_reading {kind : BoundRecordKind} :
    (readBoundRecordAt d kind).Uses (·.reading = true) :=
  (readRegularFile_reading (access_reading rfl)).bind fun _ => (Program.Uses.require ..).bind fun _ => trivial

theorem readRequest_reading : (readRequest a).Uses (·.reading = true) :=
  actionDescriptor_reading.bind fun _ => readRequestAt_reading.bind fun _ =>
    readBoundRecordAt_reading.bind fun _ => (Program.Uses.lift _).bind fun _ => trivial

theorem readSubmissionClaim_reading : (readSubmissionClaim a).Uses (·.reading = true) :=
  readRequest_reading.bind fun _ => actionDescriptor_reading.bind fun _ =>
    readBoundRecordAt_reading.bind fun _ => (Program.Uses.lift _).bind fun _ => trivial

theorem requiring_reading {message : String} {prog : StoreProgram α}
    (h : prog.Uses (·.reading = true)) : (requiring message prog).Uses (·.reading = true) := by
  refine h.handle fun e => ?_
  cases e <;> trivial

theorem requireSubmission_reading {name : String} :
    (requireSubmission a name).Uses (·.reading = true) :=
  (requiring_reading readSubmissionClaim_reading).bind fun _ => trivial

theorem readExecutionClaim_reading : (readExecutionClaim a).Uses (·.reading = true) :=
  readRequest_reading.bind fun _ => requireSubmission_reading.bind fun _ =>
    actionDescriptor_reading.bind fun _ => readBoundRecordAt_reading.bind fun _ =>
      (Program.Uses.lift _).bind fun _ => trivial

theorem validateResultAuthorization_reading {result : TransactionResult} :
    (validateResultAuthorization result).Uses (·.reading = true) := by
  refine requireSubmission_reading.bind fun _ => ?_
  split
  · exact (requiring_reading readExecutionClaim_reading).bind fun _ => trivial
  · trivial

theorem readStopIntent_reading : (readStopIntent a).Uses (·.reading = true) :=
  readRequest_reading.bind fun _ => actionDescriptor_reading.bind fun _ =>
    (readRegularFile_reading (access_reading rfl)).bind fun _ => (Program.Uses.lift _).bind fun _ =>
      requireSubmission_reading.bind fun _ => trivial

theorem readResult_reading : (readResult a).Uses (·.reading = true) :=
  readRequest_reading.bind fun _ => actionDescriptor_reading.bind fun _ =>
    (readRegularFile_reading (access_reading rfl)).bind fun _ => (Program.Uses.lift _).bind fun _ =>
      validateResultAuthorization_reading.bind fun _ => trivial

end Reading

/-! ### What the operations learn -/

theorem reopen_does {φ : ActionDirectory → Prop} (hφ : Stable φ) (hat : root.At p a d φ) :
    Does p n (fun e t => e = d ∧ t.At p a d φ) (actionDescriptor a) root := by
  refine (actionDescriptor_does.frame actionDescriptor_reading hφ hat).mono fun e t h => ?_
  exact ⟨Option.some.inj (h.1.symm.trans h.2.1), h.2⟩

theorem readRequest_does (hs : root.Consistent) :
    Does p n (fun r t => r.actionId = a ∧ ∃ d, t.At p a d (·.origin = r)) (readRequest a) root := by
  unfold readRequest
  refine actionDescriptor_does.bind hs fun d t ht _ hd => ?_
  refine (readRequestAt_does ht hd).bind ht fun r u hu _ hr => ?_
  refine ((readBoundRecordAt_does hu hr.2.1).frame readBoundRecordAt_reading
    (stable_origin r) hr.2).bind hu fun _ v hv _ hat => ?_
  refine (Does.lift fun _ _ w hw => hat.2.later (stable_origin r) hw).bind hv
    fun _ w _ _ hat => ?_
  exact fun x hx => ⟨hr.1, d, hat.later (stable_origin r) hx⟩

theorem readSubmissionClaim_does (hs : root.Consistent) :
    Does p n (fun _ t => ∃ d, t.At p a d (·.submissionClaim.isSome)) (readSubmissionClaim a)
      root := by
  unfold readSubmissionClaim
  refine (readRequest_does hs).bind hs fun r t ht _ hr => ?_
  refine actionDescriptor_does.bind ht fun d u hu _ hd => ?_
  refine (readBoundRecordAt_does hu hd).bind hu fun c v hv _ hat => ?_
  have hstable := stable_claimed .submissionClaim
  refine (Does.lift fun _ _ w hw => hat.later hstable hw).bind hv fun _ w _ _ hat => ?_
  exact fun x hx => ⟨d, (hat.later hstable hx).mono fun D hD => hD.1 rfl⟩

theorem requiring_does {α : Type} {Q : α → Root Proc → Prop} {message : String}
    {prog : StoreProgram α} (hs : root.Consistent) (h : Does p n Q prog root) :
    Does p n Q (requiring message prog) root := by
  refine Meets.handle h hs fun e t _ _ _ => ?_
  cases e <;> exact Does.raise

theorem requireSubmission_does {name : String} (hs : root.Consistent) :
    Does p n (fun _ t => ∃ d, t.At p a d (·.submissionClaim.isSome)) (requireSubmission a name)
      root := by
  unfold requireSubmission
  refine (requiring_does hs (readSubmissionClaim_does hs)).bind hs fun _ t _ _ hat => ?_
  obtain ⟨d, hat⟩ := hat
  exact fun u hu => ⟨d, hat.later stable_submitted hu⟩

theorem submission_does {name : String} {φ : ActionDirectory → Prop} (hs : root.Consistent)
    (hφ : Stable φ) (hat : root.At p a d φ) :
    Does p n (fun _ t => t.At p a d fun D => φ D ∧ D.submissionClaim.isSome)
      (requireSubmission a name) root := by
  refine ((requireSubmission_does hs).frame requireSubmission_reading hφ hat).mono ?_
  rintro _ t ⟨⟨e, hsub⟩, hat⟩
  obtain rfl : d = e := Option.some.inj (hat.1.symm.trans hsub.1)
  exact hat.and hsub

theorem readExecutionClaim_does (hs : root.Consistent) :
    Does p n (fun _ t => ∃ d, t.At p a d fun D => D.submissionClaim.isSome ∧
      D.executionClaim.isSome) (readExecutionClaim a) root := by
  unfold readExecutionClaim
  refine (readRequest_does hs).bind hs fun r t ht _ hr => ?_
  refine (requireSubmission_does ht).bind ht fun _ u hu _ hsub => ?_
  obtain ⟨d, hsub⟩ := hsub
  refine (reopen_does stable_submitted hsub).bind hu fun e v hv _ he => ?_
  obtain ⟨rfl, hsub⟩ := he
  refine ((readBoundRecordAt_does hv hsub.1).frame readBoundRecordAt_reading stable_submitted
    hsub).bind hv fun c w hw _ hat => ?_
  have hstable := (stable_claimed .executionClaim).and stable_submitted
  have hboth := hat.1.and hat.2
  refine (Does.lift fun _ _ x hx => hboth.later hstable hx).bind hw fun _ x _ _ hat => ?_
  exact fun y hy => ⟨e, (hat.later hstable hy).mono fun D hD => ⟨hD.2, hD.1.2 rfl⟩⟩

theorem authorization_does {result : TransactionResult} {φ : ActionDirectory → Prop}
    (hs : root.Consistent) (hφ : Stable φ) (hat : root.At p result.actionId d φ) :
    Does p n (fun _ t => t.At p result.actionId d fun D => (φ D ∧ D.submissionClaim.isSome) ∧
      (result.outcome = .completed → D.executionClaim.isSome))
      (validateResultAuthorization result) root := by
  unfold validateResultAuthorization
  refine (submission_does hs hφ hat).bind hs fun _ t ht _ hat => ?_
  have hstable := hφ.and stable_submitted
  split
  · refine ((requiring_does ht (readExecutionClaim_does ht)).frame
      (requiring_reading readExecutionClaim_reading) hstable hat).bind ht fun _ u _ _ hex => ?_
    obtain ⟨⟨e, hex⟩, hat⟩ := hex
    obtain rfl : d = e := Option.some.inj (hat.1.symm.trans hex.1)
    have hboth := hat.and (hex.mono fun D hD (_ : result.outcome = .completed) => hD.2)
    exact fun v hv => hboth.later (hstable.and stable_executing.imp) hv
  · rename_i hne
    have hboth := hat.mono fun D hD => And.intro hD fun he =>
      absurd he hne (b := D.executionClaim.isSome = true)
    exact fun v hv => hboth.later (hstable.and stable_executing.imp) hv

theorem stable_stopIntent (i : StopIntent) : Stable (·.stopIntent = some i) :=
  fun _ _ hev h => hev.stopIntent _ h

theorem stable_result (r : TransactionResult) : Stable (·.result = some r) :=
  fun _ _ hev h => hev.result _ h

theorem readStopIntent_does (hs : root.Consistent) :
    Does p n (fun i t => ∃ d, t.At p a d (·.stopIntent = some i)) (readStopIntent a) root := by
  unfold readStopIntent
  refine (readRequest_does hs).bind hs fun r t ht _ _ => ?_
  refine actionDescriptor_does.bind ht fun d u hu _ hd => ?_
  refine ((reads_stopIntent d).file (a := a) hu hd stable_stopIntent fun D i _ hi => hi).bind hu
    fun i v hv _ hat => ?_
  refine (Does.lift (Q := fun _ w => w.At p a d (·.stopIntent = some i))
    fun _ _ w hw => hat.later (stable_stopIntent i) hw).bind hv fun _ w hw _ hat => ?_
  refine ((requireSubmission_does hw).frame requireSubmission_reading (stable_stopIntent i)
    hat).bind hw fun _ x _ _ hat => ?_
  exact fun y hy => ⟨d, hat.2.later (stable_stopIntent i) hy⟩

theorem binding_of_validated {r : TransactionRequest} {result : TransactionResult} {u : Unit}
    (h : validateResultBinding r result = .ok u) : result.toBinding = r.binding := by
  unfold validateResultBinding at h
  by_contra hne
  simp [hne] at h

theorem readResult_does (hs : root.Consistent) :
    Does p n (fun r t => ∃ d, t.At p a d (·.result = some r)) (readResult a) root := by
  unfold readResult
  refine (readRequest_does hs).bind hs fun r t ht _ hr => ?_
  refine actionDescriptor_does.bind ht fun d u hu _ hd => ?_
  refine ((reads_result d).file (a := a) hu hd stable_result fun D i _ hi => hi).bind hu
    fun result v hv _ hat => ?_
  refine (Does.lift (Q := fun _ w => result.toBinding = r.binding ∧
    w.At p a d (·.result = some result)) fun _ hb w hw =>
      ⟨binding_of_validated hb, hat.later (stable_result result) hw⟩).bind hv fun _ w hw _ hx => ?_
  obtain ⟨hb, hat⟩ := hx
  obtain rfl : result.actionId = a := (congrArg Binding.actionId hb).trans hr.1
  refine (authorization_does hw (stable_result result) hat).bind hw fun _ x _ _ hat => ?_
  exact fun y hy => ⟨d, (hat.mono fun D hD => hD.1.1).later (stable_result result) hy⟩

/-! ### What the operations install -/

omit [DecidableEq Proc] in
theorem install_created {α : Type} {get : ActionDirectory → Option α}
    {put : ActionDirectory → ActionDirectory} (h : (root.install d get put).1 = .created) :
    ∃ D, root.directory d = some D ∧ (root.install d get put).2.directory d = some (put D) := by
  unfold Root.install at h ⊢
  cases hd : root.directory d with
  | none => simp [hd] at h
  | some D =>
    simp only [hd] at h ⊢
    split_ifs at h ⊢ with hl hg
    exact ⟨D, rfl, set_directory_self ..⟩

omit [DecidableEq Proc] in
theorem install_descriptors {α : Type} (get : ActionDirectory → Option α)
    (put : ActionDirectory → ActionDirectory) :
    (root.install d get put).2.descriptors = root.descriptors := by
  unfold Root.install
  split
  · rfl
  · split_ifs
    · rfl
    · rfl
    · rfl

/-- One installation into the retained directory: what is known of the directory permits it, and
where it succeeds the record is there for good. -/
theorem install_does {q : Access} {put : ActionDirectory → ActionDirectory} {α : Type}
    {get : ActionDirectory → Option α} {φ ψ : ActionDirectory → Prop}
    {f : Installation → q.Reply} (hφ : Stable φ) (hψ : Stable ψ) (hat : root.At p a d φ)
    (hq : ∀ t : Root Proc, Root.perform p n q t =
      (f (t.install d get put).1, (t.install d get put).2))
    (hf : ∀ x y, f x = f y → x = y)
    (hpermit : ∀ t : Root Proc, t.Consistent → t.At p a d φ → t.Permitted q)
    (hput : ∀ D, φ D → ψ (put D)) :
    Does p n (fun x t => t.descriptors p a = some d ∧ (x = f .created → t.At p a d ψ))
      (access q) root := by
  refine Does.ask fun t ht => ?_
  have hat := hat.later hφ ht
  have hg := ht.inv.perform (p := p) n (hpermit t ht.inv hat)
  rw [hq t] at hg ⊢
  refine ⟨hg, fun u hu => ⟨?_, fun hx => ?_⟩⟩
  · exact (congrFun hu.own a).trans ((congrFun (congrFun (install_descriptors ..) p) a).trans hat.1)
  · obtain ⟨D, hD, hput'⟩ := install_created (hf _ _ hx)
    obtain ⟨hd, D', hD', hφD⟩ := hat
    obtain rfl : D' = D := Option.some.inj (hD'.symm.trans hD)
    refine At.later hψ (show (t.install d get put).2.At p a d _ from ⟨?_, _, hput', hput _ hφD⟩) hu
    rw [install_descriptors]
    exact hd

theorem alreadyClaimed_does {α : Type} {Q : α → Root Proc → Prop} {r : TransactionRequest}
    {kind : BoundRecordKind} {message : String} (hs : root.Consistent)
    (hd : root.descriptors p a = some d) :
    Does p n Q (alreadyClaimed d r kind message) root := by
  unfold alreadyClaimed
  refine (readBoundRecordAt_does hs hd).bind hs fun _ t ht _ hat => ?_
  have hstable := stable_claimed kind
  refine (Does.lift (Q := fun _ u => u.At p a d (Claimed kind))
    fun _ _ u hu => hat.later hstable hu).bind ht fun _ _ _ _ _ => ?_
  exact Does.raise

variable (sha : ContentSha256)

theorem claimSubmission_does (hs : root.Consistent) :
    Does p n (fun c t => ∃ d, t.At p a d (·.submissionClaim = some ⟨c, n⟩))
      (claimSubmission sha a) root := by
  unfold claimSubmission
  refine (readRequest_does hs).bind hs fun r t ht _ hr => ?_
  obtain ⟨-, d, hat⟩ := hr
  refine (reopen_does (stable_origin r) hat).bind ht fun e u hu _ he => ?_
  obtain ⟨rfl, hat⟩ := he
  have hstable : Stable (·.submissionClaim = some ⟨r.record sha .submissionClaim, n⟩) :=
    fun D D' hev h => hev.submission _ h
  refine (install_does (q := .createSubmissionClaim e (r.record sha .submissionClaim))
    (f := fun x => x) (stable_origin r) hstable hat (fun _ => rfl) (fun _ _ h => h)
    (fun t _ hat D hD => congrArg TransactionRequest.binding (hat.directory D hD).symm) fun D _ => rfl).bind hu
    fun x v hv _ hx => ?_
  cases x with
  | created => exact fun w hw => ⟨e, (hx.2 rfl).later hstable hw⟩
  | fileNotFound => exact Does.raise
  | fileExists => exact alreadyClaimed_does hv hx.1

theorem claimExecution_does (hs : root.Consistent) :
    Does p n (fun c t => ∃ d, t.At p a d (·.executionClaim = some ⟨c, n⟩))
      (claimExecution sha a) root := by
  unfold claimExecution
  refine (readRequest_does hs).bind hs fun r t ht _ hr => ?_
  obtain ⟨-, d, hat⟩ := hr
  refine (submission_does ht (stable_origin r) hat).bind ht fun _ u hu _ hat => ?_
  have hknown := (stable_origin r).and stable_submitted
  refine (reopen_does hknown hat).bind hu fun e v hv _ he => ?_
  obtain ⟨rfl, hat⟩ := he
  have hstable : Stable (·.executionClaim = some ⟨r.record sha .executionClaim, n⟩) :=
    fun D D' hev h => hev.execution _ h
  refine (install_does (q := .createExecutionClaim e (r.record sha .executionClaim))
    (f := fun x => x) hknown hstable hat (fun _ => rfl) (fun _ _ h => h) (fun t _ hat D hD => ?_)
    fun D _ => rfl).bind hv fun x w hw _ hx => ?_
  · obtain ⟨rfl, hsub⟩ := hat.directory D hD
    exact ⟨rfl, hsub⟩
  · cases x with
    | created => exact fun y hy => ⟨e, (hx.2 rfl).later hstable hy⟩
    | fileNotFound => exact Does.raise
    | fileExists => exact alreadyClaimed_does hw hx.1

theorem stopIntentOf_binding {r : TransactionRequest} {l : ActionLifecycle} {i : StopIntent}
    (h : stopIntentOf sha r l = .ok i) : i.toBinding = r.binding := by
  unfold stopIntentOf at h
  split at h
  · cases h
    rfl
  · cases h

theorem createStopIntent_does {l : ActionLifecycle} (hs : root.Consistent) :
    Does p n (fun i t => ∃ d, t.At p a d (·.stopIntent = some i)) (createStopIntent sha a l)
      root := by
  unfold createStopIntent
  refine (readRequest_does hs).bind hs fun r t ht _ hr => ?_
  obtain ⟨rfl, d, hat⟩ := hr
  refine (submission_does ht (stable_origin r) hat).bind ht fun _ u hu _ hat => ?_
  have hknown := (stable_origin r).and stable_submitted
  refine (Does.lift (Q := fun i v => i.toBinding = r.binding ∧ v.At p r.actionId d fun D =>
    D.origin = r ∧ D.submissionClaim.isSome) fun i hi v hv =>
      ⟨stopIntentOf_binding sha hi, hat.later hknown hv⟩).bind hu fun i v hv _ hx => ?_
  obtain ⟨hb, hat⟩ := hx
  refine (reopen_does hknown hat).bind hv fun e w hw _ he => ?_
  obtain ⟨rfl, hat⟩ := he
  refine (install_does (q := .createStopIntent e i) (f := fun x => x) hknown
    (stable_stopIntent i) hat (fun _ => rfl) (fun _ _ h => h) (fun t _ hat D hD => ?_)
    fun D _ => rfl).bind hw fun x y hy _ hx => ?_
  · obtain ⟨rfl, hsub⟩ := hat.directory D hD
    exact ⟨hb, hsub⟩
  · cases x with
    | created => exact fun z hz => ⟨e, (hx.2 rfl).later (stable_stopIntent i) hz⟩
    | fileNotFound => exact Does.raise
    | fileExists =>
      refine (readStopIntent_does hy).bind hy fun j z _ _ hj => Does.require fun _ => ?_
      obtain ⟨d', hj⟩ := hj
      exact fun z' hz' => ⟨d', hj.later (stable_stopIntent j) hz'⟩

theorem withResultHash_eq {r r' : TransactionResult} (h : withResultHash sha r = .ok r') :
    r'.toResultBody = r.toResultBody := by
  unfold withResultHash at h
  dsimp only at h
  split_ifs at h
  cases h
  rfl

theorem writeResult_does {result : TransactionResult} (hs : root.Consistent) :
    Does p n (fun r t => ∃ d, t.At p result.actionId d (·.result = some r))
      (writeResult sha result) root := by
  unfold writeResult
  refine (readRequest_does hs).bind hs fun r t ht _ hr => ?_
  obtain ⟨ha, d, hat⟩ := hr
  refine (Does.lift (Q := fun x u => x.toResultBody = result.toResultBody ∧ u.At p result.actionId d
    (·.origin = r))
    fun x hx u hu => ⟨withResultHash_eq sha hx, hat.later (stable_origin r) hu⟩).bind ht
    fun x u hu _ hx => ?_
  obtain ⟨hbody, hat⟩ := hx
  have hact : x.actionId = result.actionId := congrArg (·.actionId) hbody
  rw [← hact] at hat
  refine (Does.lift (Q := fun _ v => x.toBinding = r.binding ∧ v.At p x.actionId d
    (·.origin = r))
    fun _ hb v hv => ⟨binding_of_validated hb, hat.later (stable_origin r) hv⟩).bind hu
    fun _ v hv _ hx => ?_
  obtain ⟨hb, hat⟩ := hx
  refine (authorization_does hv (stable_origin r) hat).bind hv fun _ w hw _ hat => ?_
  have hknown := ((stable_origin r).and stable_submitted).and
    (stable_executing.imp (c := x.outcome = .completed))
  refine (reopen_does hknown hat).bind hw fun e y hy _ he => ?_
  obtain ⟨rfl, hat⟩ := he
  refine (install_does (q := .createResult e x) (f := fun x => x) hknown (stable_result x) hat
    (fun _ => rfl) (fun _ _ h => h) (fun t _ hat D hD => ?_) fun D _ => rfl).bind hy
    fun i z hz _ hx => ?_
  · obtain ⟨⟨rfl, hsub⟩, hex⟩ := hat.directory D hD
    exact ⟨hb, hsub, hex⟩
  · rw [← hact]
    cases i with
    | created => exact fun z' hz' => ⟨e, (hx.2 rfl).later (stable_result x) hz'⟩
    | fileNotFound => exact Does.raise
    | fileExists =>
      refine (readResult_does hz).bind hz fun j z' _ _ hj => Does.require fun _ => ?_
      obtain ⟨d', hj⟩ := hj
      exact fun y' hy' => ⟨d', hj.later (stable_result j) hy'⟩

/-! ### Publishing and removing -/

/-- The access needs no authority. -/
def Access.Free (q : Access) : Prop := ∀ (Proc : Type) (root : Root Proc), root.Permitted q

theorem free_of_reading {q : Access} (hq : q.reading = true) : Access.Free q := by
  intro Proc root
  cases q with
  | publish request prepared artifacts => cases hq
  | createSubmissionClaim d claim => cases hq
  | createExecutionClaim d claim => cases hq
  | createStopIntent d intent => cases hq
  | createResult d result => cases hq
  | _ => trivial

theorem free_does {α : Type} {prog : StoreProgram α} (hu : prog.Uses Access.Free) :
    Does p n (fun _ _ => True) prog root :=
  Meets.of_uses hu trivial (fun _ _ _ _ => trivial) fun _ t hq ht _ =>
    ⟨trivial, ht.perform n (hq _ t), trivial⟩

theorem Does.demand {Q : Unit → Root Proc → Prop} {prog : StoreProgram Bool} {e : StoreError}
    (h : Does p n (fun x t => x = true → Q () t) prog root) :
    Does p n Q (Store.demand prog e) root := by
  induction prog generalizing root with
  | done x =>
    unfold Store.demand Program.require
    cases x with
    | false => exact Does.raise
    | true => exact fun t ht => h t ht rfl
  | raise e => exact Does.raise
  | request q k ih => exact fun t ht => ⟨trivial, (h t ht).2.1, ih _ (h t ht).2.2⟩

theorem validateArtifactsAt_reading {artifacts : List TransactionArtifact} :
    (validateArtifactsAt d artifacts).Uses (·.reading = true) := by
  refine Program.Uses.bind (access_reading rfl) fun _ => ?_
  refine (Program.Uses.require ..).bind fun _ => Program.Uses.forM fun artifact _ => ?_
  exact (readRegularFile_reading (access_reading rfl)).bind fun _ => .require ..

theorem createRequest_does {request : TransactionRequest} {artifacts : List TransactionArtifact}
    (hs : root.Consistent) :
    Does p n (fun r t => ∃ d, t.At p r.actionId d (·.origin = r))
      (createRequest sha request artifacts) root := by
  unfold createRequest
  refine (Does.lift (Q := fun _ _ => True) fun _ _ _ _ => trivial).bind hs fun artifacts t ht _ _ => ?_
  refine (Does.lift (Q := fun _ _ => True) fun _ _ _ _ => trivial).bind ht fun r u hu _ _ => ?_
  refine Meets.bind (Q := fun d t => t.descriptors p r.actionId = some d) ?_ hu
    fun d v hv _ hd => ?_
  · refine Meets.handle actionDescriptor_does hu fun e v hv _ _ => ?_
    cases e with
    | fileNotFound =>
      refine Meets.bind (Q := fun _ _ => True) ?_ hv fun _ w hw _ _ => actionDescriptor_does
      exact fun w hw => ⟨trivial, hw.inv.publish rfl artifacts, fun _ _ => trivial⟩
    | _ => exact Does.raise
  refine (readRequestAt_does hv hd).bind hv fun existing w hw _ hr => ?_
  obtain ⟨ha, hat⟩ := hr
  rw [← ha] at hat
  have hstable := stable_origin existing
  refine ((readBoundRecordAt_does hw hat.1).frame readBoundRecordAt_reading hstable hat).bind hw
    fun prepared x hx _ hat => ?_
  refine (Does.lift (Q := fun _ y => y.At p existing.actionId d (·.origin = existing))
    fun _ _ y hy => hat.2.later hstable hy).bind hx fun _ y hy _ hat => Does.require fun _ => ?_
  dsimp only
  split
  · refine ((free_does (validateArtifactsAt_reading.mono fun _ => free_of_reading)).frame
      validateArtifactsAt_reading hstable hat).bind hy fun _ z _ _ hat => ?_
    exact fun z' hz' => ⟨d, hat.2.later hstable hz'⟩
  · exact fun z hz => ⟨d, hat.later hstable hz⟩

theorem removeArtifacts_free : (removeArtifacts d).Uses Access.Free := by
  have hdemand : ∀ {q : StoreProgram Bool} {e : StoreError}, q.Uses Access.Free →
      (Store.demand q e).Uses Access.Free := fun h => h.bind fun _ => .require ..
  refine Program.Uses.bind ⟨fun _ _ => trivial, fun _ => trivial⟩ fun paths => ?_
  refine (Program.Uses.forM fun path _ => hdemand ?_).bind fun _ => hdemand ?_
  · exact ⟨fun _ _ => trivial, fun _ => trivial⟩
  · exact ⟨fun _ _ => trivial, fun _ => trivial⟩

omit [DecidableEq Proc] in
theorem removed_of_removeDirectory (p : Proc) (hs : root.Consistent)
    (h : (root.removeDirectory a).1 = true) {D : ActionDirectory}
    (hD : (root.removeDirectory a).2.directory d = some D) (ha : D.action = a) :
    D.live = false := by
  have hafter := (hs.removeDirectory (p := p) a).inv
  by_contra hl
  have hname := hafter.live d D hD (by simpa using hl)
  unfold Root.removeDirectory at h hname
  split at h
  · cases h
  · split at h
    · cases h
    · split_ifs at h with hempty
      rename_i hn _ _ hd
      simp [hn, hd, hempty, ha] at hname

theorem free_bind_does {α β : Type} {Q : β → Root Proc → Prop} {prog : StoreProgram α}
    {f : α → StoreProgram β} (hs : root.Consistent) (hu : prog.Uses Access.Free)
    (hf : ∀ x t, t.Consistent → root.Evolves t → Does p n Q (f x) t) :
    Does p n Q (prog >>= f) root :=
  (free_does hu).bind hs fun x t ht hev _ => hf x t ht hev

theorem demand_free {prog : StoreProgram Bool} {e : StoreError} (hu : prog.Uses Access.Free) :
    (Store.demand prog e).Uses Access.Free :=
  hu.bind fun _ => .require ..

theorem unlink_free (d : Nat) (e : StoreError) :
    (Store.demand (access (.unlinkPrepared d)) e).Uses Access.Free ∧
      (Store.demand (access (.unlinkRequest d)) e).Uses Access.Free :=
  ⟨demand_free ⟨fun _ _ => trivial, fun _ => trivial⟩,
    demand_free ⟨fun _ _ => trivial, fun _ => trivial⟩⟩

theorem removeDirectory_does {r : TransactionRequest} {e : StoreError} {D : ActionDirectory}
    (hD : root.directory d = some D) (hor : D.origin = r) :
    Does p n (fun _ t => ∃ D, t.directory d = some D ∧ D.origin = r ∧ D.live = false)
      (Store.demand (access (.removeDirectory r.actionId)) e) root := by
  refine Does.demand (Does.ask fun t ht => ?_)
  have hg := ht.inv.removeDirectory (p := p) r.actionId
  refine ⟨hg, fun u hu hremoved => ?_⟩
  obtain ⟨E, hE, hDE⟩ := (protocol.trans ht.evolves hg.evolves).2 d D hD
  have hact : E.action = r.actionId := by
    rw [← (hg.inv.bound d E hE).origin, hDE.origin, hor]
  have hdead := removed_of_removeDirectory p ht.inv hremoved hE hact
  exact (stable_removed r).known hE ⟨hDE.origin.trans hor, hdead⟩ hu.evolves

/-- A discard which succeeds has removed a directory which was published with its request. -/
theorem discardUnacknowledged_does {request : TransactionRequest} (hs : root.Consistent) :
    Does p n (fun _ t => ∃ r d D, withRequestHash sha request = .ok r ∧
      t.directory d = some D ∧ D.origin = r ∧ D.live = false)
      (discardUnacknowledged sha request) root := by
  unfold discardUnacknowledged
  refine (readRequest_does hs).bind hs fun r t ht _ hr => ?_
  obtain ⟨ha, d, hat⟩ := hr
  have hstable := stable_origin r
  refine (Does.lift (Q := fun x u => withRequestHash sha request = .ok x ∧
    u.At p request.actionId d (·.origin = r)) fun x hx u hu =>
      ⟨hx, hat.later hstable hu⟩).bind ht fun x u hu _ hx => Does.require fun hrx => ?_
  subst hrx
  obtain ⟨hhash, hat⟩ := hx
  refine (reopen_does hstable hat).bind hu fun e v hv _ he => ?_
  obtain ⟨rfl, -, D, hD, hor⟩ := he
  refine free_bind_does hv ⟨fun _ _ => trivial, fun _ => trivial⟩ fun names w hw hvw => ?_
  refine Does.require fun _ => ?_
  have hrest : ∀ x, x.Consistent → v.Evolves x → Does p n (fun _ t => ∃ r d D,
      withRequestHash sha request = .ok r ∧ t.directory d = some D ∧ D.origin = r ∧
        D.live = false)
      (do
        Store.demand (access (.unlinkPrepared e))
          (.immutable "prepared transaction evidence changed during cleanup")
        Store.demand (access (.unlinkRequest e))
          (.immutable "prepared transaction evidence changed during cleanup")
        Store.demand (access (.removeDirectory request.actionId))
          (.immutable "transaction directory contains unexpected evidence")
        access (.closeAction request.actionId)) x := by
    intro x hx hvx
    refine free_bind_does hx (unlink_free e _).1 fun _ y hy hxy => ?_
    refine free_bind_does hy (unlink_free e _).2 fun _ z hz hyz => ?_
    obtain ⟨E, hE, hDE⟩ := (protocol.trans hvx (protocol.trans hxy hyz)).2 e D hD
    rw [← ha]
    refine (removeDirectory_does hE (hDE.origin.trans hor)).bind hz fun _ z' hz' _ hgone => ?_
    obtain ⟨F, hF, hdead⟩ := hgone
    refine Does.ask fun s hs' => ?_
    have hclosed := hs'.inv.perform (p := p) n (q := .closeAction r.actionId) trivial
    refine ⟨hclosed, fun s' hs'' => ⟨r, e, ?_⟩⟩
    obtain ⟨G, hG, hgone⟩ := (stable_removed r).known hF hdead (protocol.trans hs'.evolves
      (protocol.trans hclosed.evolves hs''.evolves))
    exact ⟨G, hhash, hG, hgone⟩
  dsimp only
  split
  · exact free_bind_does hw removeArtifacts_free fun _ x hx hwx =>
      hrest x hx (protocol.trans hvw hwx)
  · exact hrest w hw hvw

end Store

end MonitorController
