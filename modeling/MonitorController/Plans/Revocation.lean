import MonitorController.Plans.Operations

/-! # Revocation of a planning identity

Whatever the interleaving of the calls, at most one bundle is published before
the identity is revoked, no call which starts after the revocation gets a plan,
and a late publication is taken back by the stage which made it.
-/

namespace MonitorController

open Programs Interleaving Runs Protocol

variable {Plan : Type} {codec : PlanCodec Plan} {Proc : Type} {a : ActionId}

/-- The same files are there. -/
def PlanDirectory.SameFiles (D D' : PlanDirectory codec Proc) : Prop :=
  D'.plan = D.plan ∧ D'.sha256 = D.sha256 ∧ D'.artifacts = D.artifacts

namespace PlanRoot

variable {root : PlanRoot codec Proc} {p : Proc} {d : Nat} {D D' : PlanDirectory codec Proc}

/-- Only the accesses which empty a directory change its files. -/
theorem Consistent.sameFiles (hs : root.Consistent a) {q : PlanAccess codec}
    (hq : q.empties ≠ some d) (hD : root.directory d = some D)
    (hD' : (root.perform p q).2.directory d = some D') : D.SameFiles D' := by
  have hsame : root.directory d = some D' → D.SameFiles D' := by
    intro h
    obtain rfl : D = D' := Option.some.inj (hD.symm.trans h)
    exact ⟨rfl, rfl, rfl⟩
  have hremove : ∀ {e : Nat} {present : PlanDirectory codec Proc → Bool}
      {put : PlanDirectory codec Proc → PlanDirectory codec Proc}, d ≠ e →
      (root.remove e present put).2.directory d = some D' → D.SameFiles D' := by
    intro e present put hne h
    unfold PlanRoot.remove at h
    split at h
    · exact hsame h
    · split at h
      · exact hsame ((set_directory_of_ne root hne _).symm.trans h)
      · exact hsame h
  cases q with
  | createMarker =>
    change root.createMarker.2.directory d = some D' at hD'
    unfold PlanRoot.createMarker at hD'
    split at hD' <;> exact hsame hD'
  | writeMarker =>
    change root.writeMarker.2.directory d = some D' at hD'
    unfold PlanRoot.writeMarker at hD'
    split at hD' <;> exact hsame hD'
  | publish bundle planHash =>
    change (root.publish p bundle planHash).2.directory d = some D' at hD'
    unfold PlanRoot.publish at hD'
    split at hD'
    · exact hsame hD'
    · dsimp only at hD'
      rw [Function.update_of_ne (hs.lt_published hD).ne] at hD'
      exact hsame hD'
  | detach =>
    change root.detach.2.directory d = some D' at hD'
    unfold PlanRoot.detach at hD'
    split at hD'
    · exact hsame hD'
    · split at hD'
      · exact hsame hD'
      · rename_i e _ _ E hE
        by_cases hde : d = e
        · subst hde
          obtain rfl : D = E := Option.some.inj (hD.symm.trans hE)
          obtain rfl : { D with changes := D.changes + 1 } = D' := by simpa using hD'
          exact ⟨rfl, rfl, rfl⟩
        · exact hsame ((set_directory_of_ne root hde _).symm.trans hD')
  | unlinkArtifact e path => exact hremove (fun h => hq (h ▸ rfl)) hD'
  | removeArtifactRoot e => exact hremove (fun h => hq (h ▸ rfl)) hD'
  | unlinkPlan e => exact hremove (fun h => hq (h ▸ rfl)) hD'
  | unlinkHash e => exact hremove (fun h => hq (h ▸ rfl)) hD'
  | _ => exact hsame hD'

theorem Consistent.early_eq_zero (hs : root.Consistent a) (h : root.Early d) : d = 0 := by
  cases hm : root.marker with
  | written k =>
    have hlt := h.2 k hm
    have hk := (hs.revoked k hm).2
    omega
  | absent =>
    have hone := hs.published_le_one (by simp [hm, Marker.isWritten])
    have hlt := h.1
    omega
  | created =>
    have hone := hs.published_le_one (by simp [hm, Marker.isWritten])
    have hlt := h.1
    omega

end PlanRoot

namespace PlanStore

open PlanRoot

def Promised (a : ActionId) (p : Proc) : Operation codec → PlanRoot codec Proc →
    Spec (PlanRoot codec Proc) (PlanAccess codec) PlanError (Value codec)
  | .stage bundle, root =>
    ⟨Any, fun _ t => Staged p bundle root t, fun _ t => root.Clean p → t.Clean p⟩
  | .read, root =>
    ⟨Discarding a p none,
      fun v t => ∃ b, v = .bundle b ∧ Published b t ∧ root.marker.isWritten = false,
      fun _ _ => True⟩
  | .revoke, _ =>
    ⟨Discarding a p none, fun _ t => a.kind = .plan ∧ t.marker.isWritten = true, fun _ _ => True⟩
  | .isRevoked, _ => ⟨Discarding a p none, fun _ _ => True, fun _ _ => True⟩
  | .discard expected, root =>
    ⟨Discarding a p expected, fun _ t => ∀ k, root.marker = .written k → t.Cleared k,
      fun _ t => a.kind = .plan → ∀ k, root.marker = .written k → Discarded k expected t⟩

variable [DecidableEq Plan]

theorem verified (codec : PlanCodec Plan) (Proc : Type) (a : ActionId) :
    Verified (machine codec Proc a) (protocol a) fun p _ op root => Promised a p op root where
  meets p n op root hs := by
    cases op with
    | stage bundle =>
      exact (stage_does hs).bind hs fun h t ht _ hstaged u hu =>
        ⟨hstaged.published.evolves hu.evolves, hstaged.unrevoked, fun d hd => by
          rcases hstaged.early d ((congrFun hu.own d).mp hd) with hold | he
          · exact .inl hold
          · exact .inr (he.evolves hu.evolves), fun hc => (hstaged.clean hc).later hu⟩
    | read =>
      refine ((read_does hs).mono (fun _ _ => discarding_of_reading) (fun _ _ h => h)
        fun _ _ h => h).bind hs fun b t _ _ hb u hu => ?_
      exact ⟨b, rfl, hb.1.evolves hu.evolves, hb.2⟩
    | revoke =>
      exact (revoke_does hs).bind hs fun _ t _ _ h u hu => ⟨h.1, written_evolves h.2 hu.evolves⟩
    | isRevoked =>
      exact ((isRevoked_does hs).mono (fun _ _ => discarding_of_reading) (fun _ _ h => h)
        fun _ _ _ => trivial).bind hs fun _ _ _ _ _ _ _ => trivial
    | discard expected =>
      exact (discard_does hs).bind hs fun _ t _ _ h u hu k hk => (h k hk).evolves hu.evolves

/-- The bundle which a call has staged or read with success. -/
def obtained : Output Proc (Operation codec) PlanError (Value codec) →
    Option (DesktopPlanBundle codec)
  | .returned _ _ (.stage bundle) (.ok _) => some bundle
  | .returned _ _ .read (.ok (.bundle bundle)) => some bundle
  | _ => none

/-- The call which a move ends, its number, and whether it ends with success. -/
def ended : Output Proc (Operation codec) PlanError (Value codec) →
    Option (Operation codec × Nat × Bool)
  | .returned _ n op (.ok _) => some (op, n, true)
  | .returned _ n op (.error _) => some (op, n, false)
  | _ => none

section Runs

variable [DecidableEq Proc]
  {ms : List (Interleaving.Event (PlanRoot codec Proc) Proc (Operation codec)
    (@PlanAccess.Reply _ codec) PlanError (Value codec))}
  {c : Config (PlanRoot codec Proc) Proc (Operation codec) (@PlanAccess.Reply _ codec)
    PlanError (Value codec)}

theorem account (h : Run (Machine.Init PlanRoot.Empty) (machine codec Proc a).Step ms c) :
    Account (protocol a) (machine codec Proc a) (fun p _ op root => Promised a p op root) ms c :=
  Account.of_run (verified codec Proc a) (fun _ hr => hr.consistent) h

/-- A call which gets a bundle gets one which was published, and has begun before the identity was
revoked. -/
theorem obtained_published (h : Run (Machine.Init PlanRoot.Empty) (machine codec Proc a).Step ms c)
    {e : Interleaving.Event (PlanRoot codec Proc) Proc (Operation codec)
      (@PlanAccess.Reply _ codec) PlanError (Value codec)} (he : e ∈ ms)
    {b : DesktopPlanBundle codec} (hb : obtained e.output = some b) :
    Published b e.after.shared := by
  cases ho : e.output with
  | silent => simp [ho, obtained] at hb
  | aborted p n op => simp [ho, obtained] at hb
  | returned p n op result =>
    cases result with
    | error x => cases op <;> simp [ho, obtained] at hb
    | ok v =>
      obtain ⟨s, -, hpost⟩ := (account h).returned e he p n op v ho
      cases op with
      | stage bundle =>
        obtain rfl : bundle = b := by simpa [ho, obtained] using hb
        exact hpost.published
      | read =>
        obtain ⟨b', rfl, hpublished, -⟩ := hpost
        obtain rfl : b' = b := by simpa [ho, obtained] using hb
        exact hpublished
      | _ => simp [ho, obtained] at hb

/-- While no stage is in progress and none was aborted, what is left of the publications of a
process came before the revocation. -/
theorem clean_of_run (h : Run (Machine.Init PlanRoot.Empty) (machine codec Proc a).Step ms c)
    {p : Proc} (habort : ∀ e ∈ ms, ∀ n b, e.output ≠ .aborted p n (.stage b))
    (hrunning : ∀ r, c.running p = some r → ∀ b, r.op ≠ .stage b) : c.shared.Clean p := by
  refine restored (J := fun p root => root.Clean p) (U := fun op => ∃ b, op = .stage b)
    (verified codec Proc a) (fun _ hr => hr.consistent) ?_ (fun _ _ _ hc hl => hc.later hl) ?_ ?_
      ?_ h ?_ ?_
  · rintro q root ⟨-, -, -, hempty⟩ d ⟨D, hD, -⟩
    rw [hempty d] at hD
    cases hD
  · intro q n op s access t hop hasks _ hclean
    cases op with
    | stage bundle => exact absurd ⟨bundle, rfl⟩ hop
    | read => exact hclean.later hasks.later
    | revoke => exact hclean.later hasks.later
    | isRevoked => exact hclean.later hasks.later
    | discard expected => exact hclean.later hasks.later
  · rintro q n op s v t ⟨bundle, rfl⟩ hclean hpost
    exact hpost.clean hclean
  · rintro q n op s x t ⟨bundle, rfl⟩ hclean hpost
    exact hpost hclean
  · rintro e he n op ⟨bundle, rfl⟩
    exact habort e he n bundle
  · rintro r hr ⟨bundle, hop⟩
    exact hrunning r hr bundle hop

variable {e e' : Interleaving.Event (PlanRoot codec Proc) Proc (Operation codec)
  (@PlanAccess.Reply _ codec) PlanError (Value codec)} {p q : Proc} {n k : Nat}

theorem revoked_at_start
    (h : Run (Machine.Init PlanRoot.Empty) (machine codec Proc a).Step ms c) (he : e ∈ ms)
    {v : Value codec} (ho : e.output = .returned p n .revoke (.ok v)) {op : Operation codec}
    {s : PlanRoot codec Proc} (hs : Started ms q k op s) (hk : e.after.calls ≤ k) :
    a.kind = .plan ∧ s.marker.isWritten = true := by
  obtain ⟨-, -, hkind, hm⟩ := (account h).returned e he p n _ v ho
  have hev := hs.after (verified codec Proc a) (fun _ hr => hr.consistent) h he hk
  exact ⟨hkind, written_evolves hm hev⟩

theorem started_before_revocation
    (h : Run (Machine.Init PlanRoot.Empty) (machine codec Proc a).Step ms c) (he : e ∈ ms)
    {v : Value codec} (ho : e.output = .returned p n .revoke (.ok v)) (he' : e' ∈ ms)
    {op : Operation codec} {w : Value codec} (ho' : e'.output = .returned q k op (.ok w))
    (hop : op = .read ∨ ∃ b, op = .stage b) : k < e.after.calls := by
  by_contra hk
  obtain ⟨s, hs, hpost⟩ := (account h).returned e' he' q k op w ho'
  have hwritten := (revoked_at_start h he ho hs (by omega)).2
  have hunrevoked : s.marker.isWritten = false := by
    rcases hop with rfl | ⟨b, rfl⟩
    · obtain ⟨b, -, -, hm⟩ := hpost
      exact hm
    · exact hpost.unrevoked
  rw [hwritten] at hunrevoked
  cases hunrevoked

/-- What a discard has left once the revocation is complete and all stages have ended. -/
theorem left_after_discard
    (h : Run (Machine.Init PlanRoot.Empty) (machine codec Proc a).Step ms c) (he : e ∈ ms)
    {v : Value codec} (ho : e.output = .returned p n .revoke (.ok v)) (he' : e' ∈ ms)
    {expected : Option PlanHash} {result : Except PlanError (Value codec)}
    (ho' : e'.output = .returned q k (.discard expected) result) (hk : e.after.calls ≤ k)
    (hrunning : ∀ p r, c.running p = some r → ∀ b, r.op ≠ .stage b)
    (habort : ∀ e ∈ ms, ∀ p n b, e.output ≠ .aborted p n (.stage b)) :
    c.shared.name = none ∨ ∃ d D x y, c.shared.name = some d ∧ c.shared.directory d = some D ∧
      expected = some x ∧ D.origin.hash = .ok y ∧ y ≠ x ∧ ∃ error, result = .error error := by
  have haccount := account h
  cases hname : c.shared.name with
  | none => exact .inl rfl
  | some d =>
    right
    obtain ⟨D, hD, -⟩ := haccount.inv.named d hname
    have hgone : ¬ c.shared.Gone d := fun hg => hg.2 hname
    have hearly : c.shared.Early d := by
      have hclean := clean_of_run h (fun e he n b => habort e he D.process n b)
        (hrunning D.process)
      exact (hclean d ⟨D, hD, rfl⟩).resolve_right hgone
    obtain ⟨s, hs, hend⟩ : ∃ s, Started ms q k (.discard expected) s ∧
        (a.kind = .plan → ∀ j, s.marker = .written j → Discarded j expected c.shared ∧
          ((∃ v, result = .ok v) → c.shared.Cleared j)) := by
      have hlast := haccount.evolves_last (after_mem_history h he')
      cases result with
      | ok w =>
        obtain ⟨s, hs, hpost⟩ := haccount.returned e' he' q k _ w ho'
        refine ⟨s, hs, fun _ j hj => ?_⟩
        have hcleared := (hpost j hj).evolves hlast
        exact ⟨discarded_of_cleared hcleared, fun _ => hcleared⟩
      | error x =>
        obtain ⟨s, hs, hpost⟩ := haccount.raised e' he' q k _ x ho'
        exact ⟨s, hs, fun hkind j hj => ⟨(hpost hkind j hj).evolves hlast, by rintro ⟨_, ⟨⟩⟩⟩⟩
    obtain ⟨hkind, hwritten⟩ := revoked_at_start h he ho hs hk
    obtain ⟨j, hj⟩ : ∃ j, s.marker = .written j := by
      cases hm : s.marker with
      | written j => exact ⟨j, rfl⟩
      | absent => simp [hm, Marker.isWritten] at hwritten
      | created => simp [hm, Marker.isWritten] at hwritten
    obtain ⟨f, hf, hevent, hcalls, rfl⟩ := hs
    have hstart : c.shared.marker = .written j := by
      have hmem : f.before.shared ∈ history ms c :=
        List.mem_cons_of_mem _ (List.mem_map_of_mem hf)
      exact (haccount.evolves_last hmem).written j hj
    have hdj := hearly.2 j hstart
    obtain ⟨hdiscarded, hcleared⟩ := hend hkind j hj
    rcases hdiscarded d hdj with hg | ⟨b, y, x, ⟨E, hE, -, hy⟩, hx, hne⟩
    · exact absurd hg hgone
    · obtain rfl : D = E := Option.some.inj (hD.symm.trans hE)
      refine ⟨d, D, x, y, rfl, hD, hx, hy ▸ (haccount.inv.sound d D hD).hash, hne, ?_⟩
      cases result with
      | ok w => exact absurd (hcleared ⟨w, rfl⟩ d hdj) hgone
      | error error => exact ⟨error, rfl⟩

theorem discard_spares
    (h : Run (Machine.Init PlanRoot.Empty) (machine codec Proc a).Step ms c) (he : e ∈ ms)
    (hact : e.event = .act p)
    {r : Call (Operation codec) (@PlanAccess.Reply _ codec) PlanError (Value codec)}
    (hr : e.before.running p = some r) {expected : Option PlanHash}
    (hop : r.op = .discard expected) {d : Nat} {D D' : PlanDirectory codec Proc}
    (hD : e.before.shared.directory d = some D) (hD' : e.after.shared.directory d = some D') :
    D.SameFiles D' ∨ ∀ x ∈ expected, D.origin.hash = .ok x := by
  obtain ⟨n, op, access, rest, s, hp, hinv, hasks, hafter⟩ :=
    asks_of_act (verified codec Proc a) (fun _ hr => hr.consistent) h he hact
  obtain rfl : _ = r := Option.some.inj (hp.symm.trans hr)
  obtain rfl : op = .discard expected := hop
  by_cases hq : access.empties = some d
  · refine .inr fun x hx => ?_
    rw [← hasks.hash d hq D hD x hx]
    exact (hinv.sound d D hD).hash
  · rw [hafter] at hD'
    exact .inl (hinv.sameFiles hq hD hD')

/-- The revocation protocol of the store, for every interleaving of the calls of several
processes. At most one bundle is published before the identity is revoked. A later publication,
by a stage which had passed its checks before, does not succeed; only a call in progress
at the revocation can still get such a bundle. -/
theorem plan_revocation
    (h : Run (Machine.Init PlanRoot.Empty) (machine codec Proc a).Step ms c) :
    (∀ root ∈ history ms c, ∀ d, root.Early d → d = 0) ∧
    (∀ e ∈ ms, ∀ b, obtained e.output = some b → ∃ d D, c.shared.directory d = some D ∧
      D.origin = b ∧ (e.after.shared.marker.isWritten = false → d = 0)) ∧
    (∀ e ∈ ms, ∀ p n b v, e.output = .returned p n (.stage b) (.ok v) →
      ∃ s, Started ms p n (.stage b) s ∧ ∀ d, publishedBy p e.after.shared d →
        publishedBy p s d ∨ e.after.shared.Early d) ∧
    (∀ e ∈ ms, ∀ p n v, e.output = .returned p n .revoke (.ok v) →
      (∀ e' ∈ ms, ∀ q k op w, e'.output = .returned q k op (.ok w) →
        (op = .read ∨ ∃ b, op = .stage b) → k < e.after.calls) ∧
      (∀ e' ∈ ms, ∀ q k expected result,
        e'.output = .returned q k (.discard expected) result → e.after.calls ≤ k →
          (∀ p r, c.running p = some r → ∀ b, r.op ≠ .stage b) →
          (∀ e ∈ ms, ∀ p n b, e.output ≠ .aborted p n (.stage b)) →
            c.shared.name = none ∨ ∃ d D x y, c.shared.name = some d ∧
              c.shared.directory d = some D ∧ expected = some x ∧ D.origin.hash = .ok y ∧
                y ≠ x ∧ ∃ error, result = .error error)) ∧
    (∀ e ∈ ms, ∀ p r expected, e.event = .act p → e.before.running p = some r →
      r.op = .discard expected → ∀ d D D', e.before.shared.directory d = some D →
        e.after.shared.directory d = some D' →
          D.SameFiles D' ∨ ∀ x ∈ expected, D.origin.hash = .ok x) := by
  have haccount := account h
  refine ⟨fun root hroot d hd => ?_, fun e he b hb => ?_, fun e he p n b v ho => ?_,
    fun e he p n v ho => ⟨fun e' he' q k op w ho' hop =>
      started_before_revocation h he ho he' ho' hop,
      fun e' he' q k expected result ho' hk hrunning habort =>
        left_after_discard h he ho he' ho' hk hrunning habort⟩,
    fun e he p r expected hact hr hop d D D' hD hD' => discard_spares h he hact hr hop hD hD'⟩
  · have hs := Account.inv_of_mem (verified codec Proc a) (fun _ hr => hr.consistent) h hroot
    exact hs.early_eq_zero hd
  · obtain ⟨d, planHash, D, hD, rfl, -⟩ := obtained_published h he hb
    have hmem := after_mem_history h he
    obtain ⟨D', hD', hev⟩ := (haccount.evolves_last hmem).directory d D hD
    refine ⟨d, D', hD', hev.origin, fun hm => ?_⟩
    have hs := Account.inv_of_mem (verified codec Proc a) (fun _ hr => hr.consistent) h hmem
    have hone := hs.published_le_one hm
    have hlt := hs.lt_published hD
    omega
  · obtain ⟨s, hs, hpost⟩ := (account h).returned e he p n _ v ho
    exact ⟨s, hs, hpost.early⟩

end Runs

end PlanStore

namespace Scenario

/-! Two bundles for one planning identity. The stage of the second has passed its checks when the
identity is revoked and the first bundle discarded, and so has a read. -/

def planningAction : ActionId := ⟨⟨1⟩, .plan, 1, Nat.one_pos⟩

def bareHash (plan : Bool) : PlanHash :=
  if plan then ⟨"sha256:1", by decide⟩ else ⟨"sha256:0", by decide⟩

def twoPlans : PlanCodec Bool where
  actionId _ := planningAction
  artifacts _ := []
  contentHash _ := ""
  hashPlan plan _ := .ok (bareHash plan)

def bareBundle (plan : Bool) : DesktopPlanBundle twoPlans :=
  ⟨plan, [], by decide, by decide, by decide, rfl⟩

def idlePlans : Config (PlanRoot twoPlans (Fin 3)) (Fin 3) (PlanStore.Operation twoPlans)
    (@PlanAccess.Reply _ twoPlans) PlanError (PlanStore.Value twoPlans) :=
  ⟨⟨.absent, none, 0, fun _ => none⟩, 0, fun _ => none⟩

def planCall (p : Fin 3) (op : PlanStore.Operation twoPlans) (accesses : Nat) :
    List (Label (Fin 3) (PlanStore.Operation twoPlans)) :=
  .start p op :: List.replicate accesses (.act p) ++ [.finish p]

/-- The second bundle gets the name after the first has been discarded, and the read finds it. -/
def latePublication : List (Label (Fin 3) (PlanStore.Operation twoPlans)) :=
  .start 1 (.stage (bareBundle false)) :: List.replicate 3 (.act 1) ++
  planCall 0 (.stage (bareBundle true)) 5 ++
  [.start 2 .read, .act 2] ++
  planCall 0 .revoke 2 ++
  planCall 0 (.discard none) 14 ++
  .act 1 :: List.replicate 6 (.act 2) ++ [.finish 2]

/-- A revoked plan is discarded under the hash of the other one. -/
def refusedDiscard : List (Label (Fin 3) (PlanStore.Operation twoPlans)) :=
  planCall 0 (.stage (bareBundle true)) 5 ++
  planCall 0 .revoke 2 ++
  planCall 0 (.discard (some (bareHash false))) 7

/-- A discard of the first bundle has passed its checks when another one discards it, and the second
bundle gets the name. -/
def strayDetach : List (Label (Fin 3) (PlanStore.Operation twoPlans)) :=
  .start 1 (.stage (bareBundle false)) :: List.replicate 3 (.act 1) ++
  planCall 0 (.stage (bareBundle true)) 5 ++
  planCall 0 .revoke 2 ++
  .start 2 (.discard (some (bareHash true))) :: List.replicate 9 (.act 2) ++
  planCall 0 (.discard none) 14 ++
  [.act 1, .act 2]

end Scenario

open Scenario in
theorem idlePlans_run :
    Run (Machine.Init PlanRoot.Empty) (PlanStore.machine twoPlans (Fin 3) planningAction).Step []
      idlePlans :=
  .start ⟨⟨rfl, rfl, rfl, fun _ => rfl⟩, fun _ => rfl⟩

open Scenario in
theorem latePublication_exec :
    ((PlanStore.machine twoPlans (Fin 3) planningAction).exec latePublication idlePlans).map
      (fun x => (x.1.filterMap fun e => PlanStore.obtained e.output, x.2.shared.published)) =
    some ([bareBundle false, bareBundle true], 2) := by
  decide +kernel

open Scenario in
theorem refusedDiscard_exec :
    ((PlanStore.machine twoPlans (Fin 3) planningAction).exec refusedDiscard idlePlans).any
      (fun x =>
        (x.1.any fun e => PlanStore.ended e.output = some (.revoke, 1, true) ∧ e.after.calls = 2) &&
        ((x.1.any fun e => PlanStore.ended e.output =
          some (.discard (some (bareHash false)), 2, false)) &&
        decide ((∀ p, (x.2.running p).isNone) ∧ x.2.shared.name = some 0))) = true := by
  decide +kernel

open Scenario in
theorem strayDetach_exec :
    ((PlanStore.machine twoPlans (Fin 3) planningAction).exec strayDetach idlePlans).any
      (fun x => x.1.any fun e => ((e.before.running 2).any fun r =>
          e.event = .act 2 ∧ r.op = .discard (some (bareHash true))) &&
        ((e.before.shared.directory 1).any fun D => D.origin = bareBundle false ∧
          e.before.shared.name = some 1 ∧ e.after.shared.name = none)) = true := by
  decide +kernel

open Scenario in
/-- Two bundles are published for one identity, and both are got by a successful call. A revoked plan
stays in place when its discard expects another hash. A discard of the first bundle takes the
second one out of its place. -/
theorem two_bundles_obtained :
    (∃ ms c, Run (Machine.Init PlanRoot.Empty)
        (PlanStore.machine twoPlans (Fin 3) planningAction).Step ms c ∧ c.shared.published = 2 ∧
      (∃ e ∈ ms, PlanStore.obtained e.output = some (bareBundle true)) ∧
      (∃ e ∈ ms, PlanStore.obtained e.output = some (bareBundle false)) ∧
      bareBundle true ≠ bareBundle false) ∧
    (∃ ms c, Run (Machine.Init PlanRoot.Empty)
        (PlanStore.machine twoPlans (Fin 3) planningAction).Step ms c ∧
      (∃ e ∈ ms, PlanStore.ended e.output = some (.revoke, 1, true) ∧ e.after.calls = 2) ∧
      (∃ e ∈ ms, PlanStore.ended e.output =
        some (.discard (some (bareHash false)), 2, false)) ∧
      (∀ p, (c.running p).isNone) ∧ c.shared.name = some 0) ∧
    ∃ ms c, Run (Machine.Init PlanRoot.Empty)
        (PlanStore.machine twoPlans (Fin 3) planningAction).Step ms c ∧
      ∃ e ∈ ms, ∃ r D, e.before.running 2 = some r ∧ e.event = .act 2 ∧
        r.op = .discard (some (bareHash true)) ∧ e.before.shared.directory 1 = some D ∧
        D.origin = bareBundle false ∧ (bareBundle false).hash ≠ .ok (bareHash true) ∧
        e.before.shared.name = some 1 ∧ e.after.shared.name = none := by
  refine ⟨?_, ?_, ?_⟩
  · obtain ⟨⟨ms, c⟩, hexec, hvalues⟩ := Option.map_eq_some_iff.mp latePublication_exec
    obtain ⟨hobtained, hpublished⟩ := Prod.mk.inj hvalues
    have hrun := Machine.run_of_exec idlePlans_run hexec
    rw [List.append_nil] at hrun
    have hmem : ∀ b ∈ [bareBundle false, bareBundle true],
        ∃ e ∈ ms, PlanStore.obtained e.output = some b := by
      intro b hb
      rw [← hobtained] at hb
      exact List.mem_filterMap.mp hb
    exact ⟨ms, c, hrun, hpublished, hmem _ (by simp), hmem _ (by simp), by decide⟩
  · obtain ⟨⟨ms, c⟩, hexec, hvalues⟩ := (Option.any_eq_true _ _).mp refusedDiscard_exec
    obtain ⟨hrevoked, hvalues⟩ := Bool.and_eq_true_iff.mp hvalues
    obtain ⟨hrefused, hleft⟩ := Bool.and_eq_true_iff.mp hvalues
    obtain ⟨e, he, hrevoke⟩ := List.any_eq_true.mp hrevoked
    obtain ⟨f, hf, hdiscard⟩ := List.any_eq_true.mp hrefused
    have hrun := Machine.run_of_exec idlePlans_run hexec
    rw [List.append_nil] at hrun
    exact ⟨ms, c, hrun, ⟨e, he, of_decide_eq_true hrevoke⟩, ⟨f, hf, of_decide_eq_true hdiscard⟩,
      of_decide_eq_true hleft⟩
  · obtain ⟨⟨ms, c⟩, hexec, hvalues⟩ := (Option.any_eq_true _ _).mp strayDetach_exec
    obtain ⟨e, he, hvalues⟩ := List.any_eq_true.mp hvalues
    obtain ⟨hcall, hdirectory⟩ := Bool.and_eq_true_iff.mp hvalues
    obtain ⟨r, hr, hact⟩ := (Option.any_eq_true _ _).mp hcall
    obtain ⟨D, hD, hname⟩ := (Option.any_eq_true _ _).mp hdirectory
    obtain ⟨hevent, hop⟩ := of_decide_eq_true hact
    obtain ⟨horigin, hbefore, hafter⟩ := of_decide_eq_true hname
    have hrun := Machine.run_of_exec idlePlans_run hexec
    rw [List.append_nil] at hrun
    exact ⟨ms, c, hrun, e, he, r, D, hr, hevent, hop, hD, horigin, by decide, hbefore, hafter⟩

open Scenario in
theorem plan_revocation_late : ∃ ms c,
    Run (Machine.Init PlanRoot.Empty) (PlanStore.machine twoPlans (Fin 3) planningAction).Step ms
      c ∧ c.shared.published = 2 ∧ ∀ root ∈ history ms c, ∀ d, root.Early d → d = 0 := by
  obtain ⟨⟨ms, c⟩, hexec, hvalues⟩ := Option.map_eq_some_iff.mp latePublication_exec
  have hrun := Machine.run_of_exec idlePlans_run hexec
  rw [List.append_nil] at hrun
  exact ⟨ms, c, hrun, (Prod.mk.inj hvalues).2, (PlanStore.plan_revocation hrun).1⟩

end MonitorController
