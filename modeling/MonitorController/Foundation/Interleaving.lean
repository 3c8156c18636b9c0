import MonitorController.Foundation.Programs
import MonitorController.Foundation.Runs

/-! # Interleaved calls on a shared state

Several processes run calls, each call a program whose requests the shared
state answers one at a time. Between two requests of one call any other call
may move, and a call may be cut off at any point. A call is specified against
the moves of the other processes: what it relies on they guarantee.
-/

namespace Interleaving

open Programs Runs

variable {σ Proc Op Request : Type} {Reply : Request → Type} {ε α : Type}

/-- The calls and how the shared state answers the request of a process in its numbered call. -/
structure Machine (σ Proc Op : Type) {Request : Type} (Reply : Request → Type) (ε α : Type) where
  program : Op → Program Reply ε α
  perform : Proc → Nat → (q : Request) → σ → Reply q × σ

/-- A call in progress, with its number and what is left of its program. -/
structure Call (Op : Type) {Request : Type} (Reply : Request → Type) (ε α : Type) where
  number : Nat
  op : Op
  rest : Program Reply ε α

structure Config (σ Proc Op : Type) {Request : Type} (Reply : Request → Type) (ε α : Type) where
  shared : σ
  calls : Nat
  running : Proc → Option (Call Op Reply ε α)

inductive Label (Proc Op : Type)
  | start (p : Proc) (op : Op)
  | act (p : Proc)
  | finish (p : Proc)
  | abort (p : Proc)
  deriving DecidableEq

/-- What a step lets out: the end of a call with its result, or without one. -/
inductive Output (Proc Op ε α : Type)
  | silent
  | returned (p : Proc) (number : Nat) (op : Op) (result : Except ε α)
  | aborted (p : Proc) (number : Nat) (op : Op)

namespace Machine

variable [DecidableEq Proc] (m : Machine σ Proc Op Reply ε α)

def next (c : Config σ Proc Op Reply ε α) :
    Label Proc Op → Option (Output Proc Op ε α × Config σ Proc Op Reply ε α)
  | .start p op =>
    match c.running p with
    | some _ => none
    | none =>
      some (.silent, { c with
        calls := c.calls + 1
        running := Function.update c.running p (some ⟨c.calls, op, m.program op⟩) })
  | .act p =>
    match c.running p with
    | some ⟨n, op, .request q k⟩ =>
      let (reply, shared) := m.perform p n q c.shared
      some (.silent, { c with
        shared
        running := Function.update c.running p (some ⟨n, op, k reply⟩) })
    | _ => none
  | .finish p =>
    match c.running p with
    | some ⟨n, op, .done a⟩ =>
      some (.returned p n op (.ok a), { c with running := Function.update c.running p none })
    | some ⟨n, op, .raise e⟩ =>
      some (.returned p n op (.error e), { c with running := Function.update c.running p none })
    | _ => none
  | .abort p =>
    match c.running p with
    | some ⟨n, op, _⟩ =>
      some (.aborted p n op, { c with running := Function.update c.running p none })
    | none => none

def Step (c : Config σ Proc Op Reply ε α) (l : Label Proc Op) (o : Output Proc Op ε α)
    (c' : Config σ Proc Op Reply ε α) : Prop :=
  m.next c l = some (o, c')

/-- No call is in progress and the shared state is an initial one. -/
def Init (start : σ → Prop) (c : Config σ Proc Op Reply ε α) : Prop :=
  start c.shared ∧ ∀ p, c.running p = none

/-- The run of a schedule, with its moves from the newest to the oldest. -/
def exec : List (Label Proc Op) → Config σ Proc Op Reply ε α →
    Option (List (Move (Config σ Proc Op Reply ε α) (Label Proc Op) (Output Proc Op ε α)) ×
      Config σ Proc Op Reply ε α)
  | [], c => some ([], c)
  | l :: ls, c => do
    let (o, c') ← m.next c l
    let (ms, d) ← exec ls c'
    return (ms ++ [⟨c, l, o, c'⟩], d)

/-- What one step can do. -/
inductive Stepped (c : Config σ Proc Op Reply ε α) :
    Label Proc Op → Output Proc Op ε α → Config σ Proc Op Reply ε α → Prop
  | start {p op} (hp : c.running p = none) : Stepped c (.start p op) .silent
      ⟨c.shared, c.calls + 1, Function.update c.running p (some ⟨c.calls, op, m.program op⟩)⟩
  | act {p n op q k} (hp : c.running p = some ⟨n, op, .request q k⟩) : Stepped c (.act p) .silent
      ⟨(m.perform p n q c.shared).2, c.calls,
        Function.update c.running p (some ⟨n, op, k (m.perform p n q c.shared).1⟩)⟩
  | returned {p n op a} (hp : c.running p = some ⟨n, op, .done a⟩) :
      Stepped c (.finish p) (.returned p n op (.ok a))
        ⟨c.shared, c.calls, Function.update c.running p none⟩
  | raised {p n op e} (hp : c.running p = some ⟨n, op, .raise e⟩) :
      Stepped c (.finish p) (.returned p n op (.error e))
        ⟨c.shared, c.calls, Function.update c.running p none⟩
  | aborted {p r} (hp : c.running p = some r) : Stepped c (.abort p) (.aborted p r.number r.op)
      ⟨c.shared, c.calls, Function.update c.running p none⟩

variable {m}

theorem Step.stepped {c c' : Config σ Proc Op Reply ε α} {l : Label Proc Op}
    {o : Output Proc Op ε α} (h : m.Step c l o c') : m.Stepped c l o c' := by
  unfold Step next at h
  cases l with
  | start p op =>
    cases hp : c.running p with
    | none =>
      simp only [hp] at h
      cases h
      exact .start hp
    | some r => simp [hp] at h
  | act p =>
    rcases hp : c.running p with _ | ⟨n, op, a | e | ⟨q, k⟩⟩
    · simp [hp] at h
    · simp [hp] at h
    · simp [hp] at h
    · simp only [hp] at h
      cases h
      exact .act hp
  | finish p =>
    rcases hp : c.running p with _ | ⟨n, op, a | e | ⟨q, k⟩⟩
    · simp [hp] at h
    · simp only [hp] at h
      cases h
      exact .returned hp
    · simp only [hp] at h
      cases h
      exact .raised hp
    · simp [hp] at h
  | abort p =>
    cases hp : c.running p with
    | none => simp [hp] at h
    | some r =>
      simp only [hp] at h
      cases h
      exact .aborted hp

theorem run_of_exec {init : Config σ Proc Op Reply ε α → Prop} {ls : List (Label Proc Op)}
    {c d : Config σ Proc Op Reply ε α}
    {ms ns : List (Move (Config σ Proc Op Reply ε α) (Label Proc Op) (Output Proc Op ε α))}
    (h : Run init m.Step ms c) (hexec : m.exec ls c = some (ns, d)) :
    Run init m.Step (ns ++ ms) d := by
  induction ls generalizing c ms ns with
  | nil =>
    cases hexec
    exact h
  | cons l ls ih =>
    simp only [exec, Option.bind_eq_bind, Option.bind_eq_some_iff, Prod.exists, Option.pure_def,
      Option.some.injEq, Prod.mk.injEq] at hexec
    obtain ⟨o, c', hnext, ns', d', hrest, rfl, rfl⟩ := hexec
    rw [List.append_assoc]
    exact ih (.move h hnext) hrest

end Machine

/-- The agreement of the processes: an invariant of the shared state, the order in which it
evolves, and the part of it which each process leaves to its owner. -/
structure Protocol (σ Proc κ : Type) where
  inv : σ → Prop
  evolves : σ → σ → Prop
  own : Proc → σ → κ
  refl : ∀ s, evolves s s
  trans : ∀ {s t u}, evolves s t → evolves t u → evolves s u

namespace Protocol

variable {κ : Type} (P : Protocol σ Proc κ)

/-- What a process relies on between two of its requests. -/
structure Later (p : Proc) (s t : σ) : Prop where
  inv : P.inv t
  evolves : P.evolves s t
  own : P.own p t = P.own p s

/-- What a process guarantees with one of its requests. -/
structure Guarantees (p : Proc) (s t : σ) : Prop where
  inv : P.inv t
  evolves : P.evolves s t
  own : ∀ q ≠ p, P.own q t = P.own q s

variable {P}

theorem Later.refl {p : Proc} {s : σ} (h : P.inv s) : P.Later p s s := ⟨h, P.refl s, rfl⟩

theorem Later.trans {p : Proc} {s t u : σ} (hst : P.Later p s t) (htu : P.Later p t u) :
    P.Later p s u := ⟨htu.inv, P.trans hst.evolves htu.evolves, htu.own.trans hst.own⟩

theorem Guarantees.refl {p : Proc} {s : σ} (h : P.inv s) : P.Guarantees p s s :=
  ⟨h, P.refl s, fun _ _ => rfl⟩

theorem Guarantees.later {p q : Proc} {s t : σ} (h : P.Guarantees p s t) (hqp : q ≠ p) :
    P.Later q s t := ⟨h.inv, h.evolves, h.own q hqp⟩

/-- What a call promises: the requests which it makes, what holds when it returns a value, and
what holds when it raises an error. -/
structure Spec (σ Request ε α : Type) where
  asks : Request → σ → Prop
  returns : α → σ → Prop
  raises : ε → σ → Prop

/-- Only what holds when a value is returned is promised. -/
abbrev Spec.returning (Q : α → σ → Prop) : Spec σ Request ε α :=
  ⟨fun _ _ => True, Q, fun _ _ => True⟩

variable (P)

/-- Whatever the others do between its requests, the program gives the guarantees and keeps its
promises. -/
def Meets (p : Proc) (perform : (q : Request) → σ → Reply q × σ) (S : Spec σ Request ε α) :
    Program Reply ε α → σ → Prop
  | .done a, s => ∀ t, P.Later p s t → S.returns a t
  | .raise e, s => ∀ t, P.Later p s t → S.raises e t
  | .request q k, s => ∀ t, P.Later p s t → S.asks q t ∧
    P.Guarantees p t (perform q t).2 ∧ Meets p perform S (k (perform q t).1) (perform q t).2

variable {P} {p : Proc} {perform : (q : Request) → σ → Reply q × σ} {β : Type}

namespace Meets

variable {A : Request → σ → Prop} {Q : α → σ → Prop} {E : ε → σ → Prop}
  {S : Spec σ Request ε α} {prog : Program Reply ε α} {s : σ}

theorem later {t : σ} (h : P.Meets p perform S prog s) (hst : P.Later p s t) :
    P.Meets p perform S prog t := by
  cases prog with
  | done a => exact fun u htu => h u (hst.trans htu)
  | raise e => exact fun u htu => h u (hst.trans htu)
  | request q k => exact fun u htu => h u (hst.trans htu)

theorem mono {T : Spec σ Request ε α} (h : P.Meets p perform S prog s)
    (hasks : ∀ q t, S.asks q t → T.asks q t) (hreturns : ∀ a t, S.returns a t → T.returns a t)
    (hraises : ∀ e t, S.raises e t → T.raises e t) : P.Meets p perform T prog s := by
  induction prog generalizing s with
  | done a => exact fun t ht => hreturns a t (h t ht)
  | raise e => exact fun t ht => hraises e t (h t ht)
  | request q k ih =>
    intro t ht
    obtain ⟨hq, hg, hk⟩ := h t ht
    exact ⟨hasks q t hq, hg, ih _ hk⟩

theorem weaken {R : α → σ → Prop} (h : P.Meets p perform ⟨A, Q, E⟩ prog s)
    (hQR : ∀ a t, Q a t → R a t) : P.Meets p perform ⟨A, R, E⟩ prog s :=
  h.mono (fun _ _ hq => hq) hQR fun _ _ he => he

theorem bind {f : α → Program Reply ε β} {R : β → σ → Prop}
    (h : P.Meets p perform ⟨A, Q, E⟩ prog s) (hs : P.inv s)
    (hf : ∀ a t, P.inv t → P.evolves s t → Q a t → P.Meets p perform ⟨A, R, E⟩ (f a) t) :
    P.Meets p perform ⟨A, R, E⟩ (prog >>= f) s := by
  induction prog generalizing s with
  | done a => exact hf a s hs (P.refl s) (h s (.refl hs))
  | raise e => exact h
  | request q k ih =>
    intro t ht
    obtain ⟨hq, hg, hk⟩ := h t ht
    refine ⟨hq, hg, ih _ hk hg.inv fun a u hu hev => hf a u hu ?_⟩
    exact P.trans ht.evolves (P.trans hg.evolves hev)

theorem handle {F : ε → σ → Prop} {h : ε → Program Reply ε α}
    (hp : P.Meets p perform ⟨A, Q, F⟩ prog s) (hs : P.inv s)
    (hh : ∀ e t, P.inv t → P.evolves s t → F e t → P.Meets p perform ⟨A, Q, E⟩ (h e) t) :
    P.Meets p perform ⟨A, Q, E⟩ (prog.handle h) s := by
  induction prog generalizing s with
  | done a => exact hp
  | raise e => exact hh e s hs (P.refl s) (hp s (.refl hs))
  | request q k ih =>
    intro t ht
    obtain ⟨hq, hg, hk⟩ := hp t ht
    refine ⟨hq, hg, ih _ hk hg.inv fun e u hu hev => hh e u hu ?_⟩
    exact P.trans ht.evolves (P.trans hg.evolves hev)

theorem uses {allowed : Request → Prop} (h : P.Meets p perform ⟨A, Q, E⟩ prog s)
    (hu : prog.Uses allowed) : P.Meets p perform ⟨fun q t => A q t ∧ allowed q, Q, E⟩ prog s := by
  induction prog generalizing s with
  | done a => exact h
  | raise e => exact h
  | request q k ih =>
    intro t ht
    obtain ⟨hq, hg, hk⟩ := h t ht
    exact ⟨⟨hq, hu.1⟩, hg, ih _ hk (hu.2 _)⟩

theorem frame {F : σ → Prop} (h : P.Meets p perform ⟨A, Q, E⟩ prog s) (hF : F s)
    (hlater : ∀ t u, F t → P.Later p t u → F u)
    (hperform : ∀ q t, A q t → F t → F (perform q t).2) :
    P.Meets p perform ⟨A, fun a t => Q a t ∧ F t, fun e t => E e t ∧ F t⟩ prog s := by
  induction prog generalizing s with
  | done a => exact fun t ht => ⟨h t ht, hlater s t hF ht⟩
  | raise e => exact fun t ht => ⟨h t ht, hlater s t hF ht⟩
  | request q k ih =>
    intro t ht
    obtain ⟨hq, hg, hk⟩ := h t ht
    exact ⟨hq, hg, ih _ hk (hperform q t hq (hlater s t hF ht))⟩

theorem of_uses {F : σ → Prop} {allowed : Request → Prop} (hu : prog.Uses allowed) (hF : F s)
    (hlater : ∀ t u, F t → P.Later p t u → F u)
    (hperform : ∀ q t, allowed q → P.inv t → F t →
      A q t ∧ P.Guarantees p t (perform q t).2 ∧ F (perform q t).2) :
    P.Meets p perform ⟨A, fun _ => F, fun _ => F⟩ prog s := by
  induction prog generalizing s with
  | done a => exact fun t ht => hlater s t hF ht
  | raise e => exact fun t ht => hlater s t hF ht
  | request q k ih =>
    intro t ht
    obtain ⟨hq, hg, hkept⟩ := hperform q t hu.1 ht.inv (hlater s t hF ht)
    exact ⟨hq, hg, ih _ (hu.2 _) hkept⟩

theorem ask {q : Request} {Q : Reply q → σ → Prop}
    (h : ∀ t, P.Later p s t → A q t ∧ P.Guarantees p t (perform q t).2 ∧
      ∀ u, P.Later p (perform q t).2 u → Q (perform q t).1 u) :
    P.Meets p perform ⟨A, Q, E⟩ (Program.ask q : Program Reply ε (Reply q)) s :=
  fun t ht => h t ht

theorem lift {x : Except ε α} (hok : ∀ a, x = .ok a → ∀ t, P.Later p s t → S.returns a t)
    (herror : ∀ e, x = .error e → ∀ t, P.Later p s t → S.raises e t) :
    P.Meets p perform S (.lift x) s := by
  cases x with
  | error e => exact herror e rfl
  | ok a => exact hok a rfl

theorem require {c : Prop} [Decidable c] {e : ε} {f : Unit → Program Reply ε α}
    (h : c → P.Meets p perform S (f ()) s)
    (herror : ¬ c → ∀ t, P.Later p s t → S.raises e t) :
    P.Meets p perform S (Program.require c e >>= f) s := by
  unfold Program.require
  split
  · rename_i hc
    exact h hc
  · rename_i hc
    exact herror hc

end Meets

end Protocol

/-! ## Runs of specified calls -/

def Output.number : Output Proc Op ε α → Option Nat
  | .silent => none
  | .returned _ n _ _ => some n
  | .aborted _ n _ => some n

variable [DecidableEq Proc] {κ : Type}

abbrev Event (σ Proc Op : Type) {Request : Type} (Reply : Request → Type) (ε α : Type) :=
  Move (Config σ Proc Op Reply ε α) (Label Proc Op) (Output Proc Op ε α)

/-- The shared states of a run, from the newest to the oldest. -/
def history (ms : List (Event σ Proc Op Reply ε α)) (c : Config σ Proc Op Reply ε α) : List σ :=
  c.shared :: ms.map (·.before.shared)

/-- A machine whose calls all keep a protocol, each with the promises of its start. -/
structure Verified (m : Machine σ Proc Op Reply ε α) (P : Protocol σ Proc κ)
    (S : Proc → Nat → Op → σ → Protocol.Spec σ Request ε α) : Prop where
  meets : ∀ p n op s, P.inv s → P.Meets p (m.perform p n) (S p n op s) (m.program op) s

/-- The call of this number was started by one of the moves. -/
def Started (ms : List (Event σ Proc Op Reply ε α)) (p : Proc) (n : Nat) (op : Op) (s : σ) : Prop :=
  ∃ e ∈ ms, e.event = .start p op ∧ e.before.calls = n ∧ e.before.shared = s

/-- What a run of specified calls has established. -/
structure Account (P : Protocol σ Proc κ) (m : Machine σ Proc Op Reply ε α)
    (S : Proc → Nat → Op → σ → Protocol.Spec σ Request ε α)
    (ms : List (Event σ Proc Op Reply ε α)) (c : Config σ Proc Op Reply ε α) : Prop where
  inv : P.inv c.shared
  past : (history ms c).Pairwise fun s t => P.evolves t s
  running : ∀ p r, c.running p = some r → ∃ s, Started ms p r.number r.op s ∧
    P.Meets p (m.perform p r.number) (S p r.number r.op s) r.rest c.shared
  returned : ∀ e ∈ ms, ∀ p n op a, e.output = .returned p n op (.ok a) →
    ∃ s, Started ms p n op s ∧ (S p n op s).returns a e.after.shared
  raised : ∀ e ∈ ms, ∀ p n op x, e.output = .returned p n op (.error x) →
    ∃ s, Started ms p n op s ∧ (S p n op s).raises x e.after.shared

omit [DecidableEq Proc] in
theorem Started.cons {ms : List (Event σ Proc Op Reply ε α)} {p : Proc} {n : Nat} {op : Op} {s : σ}
    (h : Started ms p n op s) (e : Event σ Proc Op Reply ε α) : Started (e :: ms) p n op s := by
  obtain ⟨d, hd, hs⟩ := h
  exact ⟨d, List.mem_cons_of_mem _ hd, hs⟩

namespace Account

variable {P : Protocol σ Proc κ} {m : Machine σ Proc Op Reply ε α}
  {S : Proc → Nat → Op → σ → Protocol.Spec σ Request ε α}
  {ms : List (Event σ Proc Op Reply ε α)} {c c' : Config σ Proc Op Reply ε α}
  {l : Label Proc Op} {o : Output Proc Op ε α}

theorem running_of_ne (h : Account P m S ms c) {e : Event σ Proc Op Reply ε α} {p q : Proc}
    (hqp : q ≠ p) {x : Option (Call Op Reply ε α)} (hg : P.Guarantees p c.shared c'.shared)
    {r : Call Op Reply ε α} (hr : Function.update c.running p x q = some r) :
    ∃ s, Started (e :: ms) q r.number r.op s ∧
      P.Meets q (m.perform q r.number) (S q r.number r.op s) r.rest c'.shared := by
  rw [Function.update_of_ne hqp] at hr
  obtain ⟨s, hs, hmeets⟩ := h.running q r hr
  exact ⟨s, hs.cons e, hmeets.later (hg.later hqp)⟩

omit [DecidableEq Proc] in
theorem past_cons (h : Account P m S ms c) {p : Proc} (hg : P.Guarantees p c.shared c'.shared) :
    (history (⟨c, l, o, c'⟩ :: ms) c').Pairwise fun s t => P.evolves t s := by
  refine List.pairwise_cons.mpr ⟨fun s hs => ?_, h.past⟩
  rcases List.mem_cons.mp hs with rfl | hs
  · exact hg.evolves
  · exact P.trans (List.rel_of_pairwise_cons h.past hs) hg.evolves

omit [DecidableEq Proc] in
/-- The end of a call leaves its promises in the account. -/
theorem ended_cons {β : Type} {x : β → Except ε α} {T : Proc → Nat → Op → σ → β → σ → Prop}
    (h : ∀ e ∈ ms, ∀ p n op b, e.output = .returned p n op (x b) →
      ∃ s, Started ms p n op s ∧ T p n op s b e.after.shared)
    (hnew : ∀ p n op b, o = .returned p n op (x b) →
      ∃ s, Started ms p n op s ∧ T p n op s b c'.shared) :
    ∀ e ∈ (⟨c, l, o, c'⟩ :: ms : List (Event σ Proc Op Reply ε α)), ∀ p n op b,
      e.output = .returned p n op (x b) →
        ∃ s, Started (⟨c, l, o, c'⟩ :: ms) p n op s ∧ T p n op s b e.after.shared := by
  intro e he p n op b hout
  rcases List.mem_cons.mp he with rfl | he
  · obtain ⟨s, hs, hq⟩ := hnew p n op b hout
    exact ⟨s, hs.cons _, hq⟩
  · obtain ⟨s, hs, hq⟩ := h e he p n op b hout
    exact ⟨s, hs.cons _, hq⟩

/-- The end of a call, with the promises of its start. -/
theorem ending (h : Account P m S ms c) {p : Proc} {n : Nat} {op : Op}
    {rest : Program Reply ε α} (hp : c.running p = some ⟨n, op, rest⟩)
    (hok : ∀ p' n' op' a, o = .returned p' n' op' (.ok a) →
      p' = p ∧ n' = n ∧ op' = op ∧ rest = .done a)
    (herror : ∀ p' n' op' e, o = .returned p' n' op' (.error e) →
      p' = p ∧ n' = n ∧ op' = op ∧ rest = .raise e) :
    Account P m S (⟨c, l, o, ⟨c.shared, c.calls, Function.update c.running p none⟩⟩ :: ms)
      ⟨c.shared, c.calls, Function.update c.running p none⟩ where
  inv := h.inv
  past := h.past_cons (.refl h.inv) (p := p)
  running q r hr := by
    by_cases hqp : q = p
    · subst hqp
      simp at hr
    · exact h.running_of_ne hqp (.refl h.inv) hr
  returned := ended_cons (x := .ok) (T := fun p n op s => (S p n op s).returns) h.returned
    fun p' n' op' a ho => by
      obtain ⟨rfl, rfl, rfl, rfl⟩ := hok p' n' op' a ho
      obtain ⟨s, hs, hmeets⟩ := h.running _ _ hp
      exact ⟨s, hs, hmeets _ (.refl h.inv)⟩
  raised := ended_cons (x := .error) (T := fun p n op s => (S p n op s).raises) h.raised
    fun p' n' op' e ho => by
      obtain ⟨rfl, rfl, rfl, rfl⟩ := herror p' n' op' e ho
      obtain ⟨s, hs, hmeets⟩ := h.running _ _ hp
      exact ⟨s, hs, hmeets _ (.refl h.inv)⟩

theorem step (hm : Verified m P S) (h : Account P m S ms c) (hs : m.Step c l o c') :
    Account P m S (⟨c, l, o, c'⟩ :: ms) c' := by
  cases hs.stepped with
  | @start p op hp =>
    refine ⟨h.inv, h.past_cons (.refl h.inv) (p := p), fun q r hr => ?_,
      ended_cons (x := .ok) (T := fun p n op s => (S p n op s).returns) h.returned nofun,
      ended_cons (x := .error) (T := fun p n op s => (S p n op s).raises) h.raised nofun⟩
    by_cases hqp : q = p
    · subst hqp
      simp only [Function.update_self, Option.some.injEq] at hr
      subst hr
      exact ⟨c.shared, ⟨_, List.mem_cons_self, rfl, rfl, rfl⟩, hm.meets _ _ _ _ h.inv⟩
    · exact h.running_of_ne hqp (.refl h.inv) hr
  | @act p n op q k hp =>
    obtain ⟨s, hstart, hmeets⟩ := h.running _ _ hp
    obtain ⟨-, hg, hrest⟩ := hmeets _ (.refl h.inv)
    refine ⟨hg.inv, h.past_cons hg, fun q' r hr => ?_,
      ended_cons (x := .ok) (T := fun p n op s => (S p n op s).returns) h.returned nofun,
      ended_cons (x := .error) (T := fun p n op s => (S p n op s).raises) h.raised nofun⟩
    by_cases hqp : q' = p
    · subst hqp
      simp only [Function.update_self, Option.some.injEq] at hr
      subst hr
      exact ⟨s, hstart.cons _, hrest⟩
    · exact h.running_of_ne hqp hg hr
  | @returned p n op a hp =>
    exact h.ending hp (by rintro _ _ _ _ ⟨⟩; exact ⟨rfl, rfl, rfl, rfl⟩) nofun
  | @raised p n op e hp =>
    exact h.ending hp nofun (by rintro _ _ _ _ ⟨⟩; exact ⟨rfl, rfl, rfl, rfl⟩)
  | @aborted p r hp => exact h.ending hp nofun nofun

theorem of_run (hm : Verified m P S) {start : σ → Prop} (hstart : ∀ s, start s → P.inv s)
    (h : Run (Machine.Init start) m.Step ms c) : Account P m S ms c := by
  refine h.history (fun c hc => ?_) fun ms c l o c' _ hacc hs => hacc.step hm hs
  refine ⟨hstart _ hc.1, List.pairwise_singleton .., fun p r hr => ?_, nofun, nofun⟩
  exact absurd (hc.2 p) (by simp [hr])

omit [DecidableEq Proc] in
theorem linear (h : Account P m S ms c) {s t : σ} (hs : s ∈ history ms c)
    (ht : t ∈ history ms c) : P.evolves s t ∨ P.evolves t s := by
  have hsymm : Std.Symm fun s t => P.evolves s t ∨ P.evolves t s := ⟨fun _ _ h => h.symm⟩
  have hpast : (history ms c).Pairwise fun s t => P.evolves s t ∨ P.evolves t s :=
    h.past.imp fun hst => .inr hst
  exact hpast.forall_of_forall (fun s _ => .inl (P.refl s)) hs ht

omit [DecidableEq Proc] in
theorem evolves_last (h : Account P m S ms c) {s : σ} (hs : s ∈ history ms c) :
    P.evolves s c.shared := by
  rcases List.mem_cons.mp hs with rfl | hs
  · exact P.refl _
  · exact List.rel_of_pairwise_cons h.past hs

theorem inv_of_mem (hm : Verified m P S) {start : σ → Prop} (hstart : ∀ s, start s → P.inv s)
    (h : Run (Machine.Init start) m.Step ms c) {s : σ} (hs : s ∈ history ms c) : P.inv s := by
  rcases List.mem_cons.mp hs with rfl | hs
  · exact (of_run hm hstart h).inv
  · obtain ⟨e, he, rfl⟩ := List.mem_map.mp hs
    obtain ⟨newer, older, rfl⟩ := List.append_of_mem he
    exact (of_run hm hstart h.older.1).inv

end Account

theorem after_mem_history {m : Machine σ Proc Op Reply ε α} {start : σ → Prop}
    {ms : List (Event σ Proc Op Reply ε α)} {c : Config σ Proc Op Reply ε α}
    (h : Run (Machine.Init start) m.Step ms c) {e : Event σ Proc Op Reply ε α} (he : e ∈ ms) :
    e.after.shared ∈ history ms c := by
  induction h with
  | start h => cases he
  | move h hs ih =>
    rcases List.mem_cons.mp he with rfl | he
    · exact List.mem_cons_self
    · exact List.mem_cons_of_mem _ (ih he)

/-! ## The numbers of the calls -/

section Numbers

variable {m : Machine σ Proc Op Reply ε α}

/-- Calls in progress and calls which have ended all have numbers of their own. -/
structure Numbered (ms : List (Event σ Proc Op Reply ε α)) (c : Config σ Proc Op Reply ε α) :
    Prop where
  running : ∀ p r, c.running p = some r → r.number < c.calls
  running_inj : ∀ p q r r', c.running p = some r → c.running q = some r' →
    r.number = r'.number → p = q
  ended : ∀ e ∈ ms, ∀ n, e.output.number = some n →
    n < c.calls ∧ ∀ p r, c.running p = some r → r.number ≠ n
  distinct : ms.Pairwise fun e d => ∀ n, e.output.number = some n → d.output.number ≠ some n
  calls : ∀ e ∈ ms, e.before.calls ≤ c.calls ∧ e.after.calls ≤ c.calls

namespace Numbered

variable {ms : List (Event σ Proc Op Reply ε α)} {c c' : Config σ Proc Op Reply ε α}
  {l : Label Proc Op} {o : Output Proc Op ε α}

omit [DecidableEq Proc] in
/-- A step which starts no call ends at most one, which is no longer in progress. -/
theorem going_on (h : Numbered ms c) (hcalls : c'.calls = c.calls)
    (hsub : ∀ q r, c'.running q = some r →
      ∃ r', c.running q = some r' ∧ r'.number = r.number ∧ o.number ≠ some r.number)
    (hended : ∀ n, o.number = some n → ∃ q r, c.running q = some r ∧ r.number = n) :
    Numbered (⟨c, l, o, c'⟩ :: ms) c' where
  running p r hr := by
    obtain ⟨r', hr', hn, -⟩ := hsub p r hr
    have hlt := h.running p r' hr'
    omega
  running_inj p q r r' hr hr' hn := by
    obtain ⟨t, ht, htn, -⟩ := hsub p r hr
    obtain ⟨t', ht', htn', -⟩ := hsub q r' hr'
    exact h.running_inj p q t t' ht ht' (by omega)
  ended e he n hn := by
    rcases List.mem_cons.mp he with rfl | he
    · obtain ⟨q, r, hr, rfl⟩ := hended n hn
      refine ⟨hcalls ▸ h.running q r hr, fun p r' hr' heq => ?_⟩
      obtain ⟨t, -, -, hne⟩ := hsub p r' hr'
      exact hne (heq ▸ hn)
    · obtain ⟨hlt, hne⟩ := h.ended e he n hn
      refine ⟨hcalls ▸ hlt, fun p r hr heq => ?_⟩
      obtain ⟨t, ht, htn, -⟩ := hsub p r hr
      exact hne p t ht (htn.trans heq)
  distinct := by
    refine List.pairwise_cons.mpr ⟨fun d hd n hn hdn => ?_, h.distinct⟩
    obtain ⟨q, r, hr, hrn⟩ := hended n hn
    exact (h.ended d hd n hdn).2 q r hr hrn
  calls e he := by
    rcases List.mem_cons.mp he with rfl | he
    · exact ⟨Nat.le_of_eq hcalls.symm, Nat.le_refl _⟩
    · exact hcalls ▸ h.calls e he

theorem ending (h : Numbered ms c) {p : Proc} {r : Call Op Reply ε α}
    (hp : c.running p = some r) (ho : o.number = some r.number) :
    Numbered (⟨c, l, o, ⟨c.shared, c.calls, Function.update c.running p none⟩⟩ :: ms)
      ⟨c.shared, c.calls, Function.update c.running p none⟩ := by
  refine h.going_on rfl (fun q r' hr' => ?_) fun n hn => ⟨p, r, hp, ?_⟩
  · have hqp : q ≠ p := by
      rintro rfl
      simp at hr'
    dsimp only at hr'
    rw [Function.update_of_ne hqp] at hr'
    refine ⟨r', hr', rfl, fun hn => hqp ?_⟩
    exact h.running_inj q p r' r hr' hp (Option.some.inj (hn.symm.trans ho))
  · exact Option.some.inj (ho.symm.trans hn)

theorem step (h : Numbered ms c) (hs : m.Step c l o c') :
    Numbered (⟨c, l, o, c'⟩ :: ms) c' := by
  cases hs.stepped with
  | @start p op hp =>
    have hcases : ∀ q r, Function.update c.running p (some ⟨c.calls, op, m.program op⟩) q = some r →
        (q = p ∧ r.number = c.calls) ∨ c.running q = some r := by
      intro q r hr
      by_cases hqp : q = p
      · subst hqp
        simp only [Function.update_self, Option.some.injEq] at hr
        exact .inl ⟨rfl, hr ▸ rfl⟩
      · rw [Function.update_of_ne hqp] at hr
        exact .inr hr
    constructor
    · intro q r hr
      rcases hcases q r hr with ⟨-, hn⟩ | hold
      · exact hn ▸ Nat.lt_succ_self _
      · exact Nat.lt_succ_of_lt (h.running q r hold)
    · intro q q' r r' hr hr' hn
      rcases hcases q r hr with ⟨rfl, hn₁⟩ | hold
      · rcases hcases q' r' hr' with ⟨rfl, -⟩ | hold'
        · rfl
        · have := h.running q' r' hold'
          omega
      · have hlt := h.running q r hold
        rcases hcases q' r' hr' with ⟨rfl, hn₂⟩ | hold'
        · omega
        · exact h.running_inj q q' r r' hold hold' hn
    · intro e he n hn
      rcases List.mem_cons.mp he with rfl | he
      · cases hn
      · obtain ⟨hlt, hne⟩ := h.ended e he n hn
        refine ⟨Nat.lt_succ_of_lt hlt, fun q r hr => ?_⟩
        rcases hcases q r hr with ⟨-, hcalls⟩ | hold
        · omega
        · exact hne q r hold
    · exact List.pairwise_cons.mpr ⟨fun _ _ _ hn => (nomatch hn), h.distinct⟩
    · intro e he
      rcases List.mem_cons.mp he with rfl | he
      · exact ⟨Nat.le_succ _, Nat.le_refl _⟩
      · obtain ⟨hb, ha⟩ := h.calls e he
        exact ⟨Nat.le_succ_of_le hb, Nat.le_succ_of_le ha⟩
  | @act p n op q k hp =>
    refine h.going_on rfl (fun q' r hr => ?_) nofun
    by_cases hqp : q' = p
    · subst hqp
      simp only [Function.update_self, Option.some.injEq] at hr
      exact ⟨_, hp, hr ▸ rfl, nofun⟩
    · dsimp only at hr
      rw [Function.update_of_ne hqp] at hr
      exact ⟨r, hr, rfl, nofun⟩
  | @returned p n op a hp => exact h.ending hp rfl
  | @raised p n op e hp => exact h.ending hp rfl
  | @aborted p r hp => exact h.ending hp rfl

theorem of_run {start : σ → Prop} (h : Run (Machine.Init start) m.Step ms c) : Numbered ms c := by
  refine h.history (fun c hc => ?_) fun ms c l o c' _ hnum hs => hnum.step hs
  have hnone : ∀ p r, c.running p ≠ some r := fun p r hr => by simp [hc.2 p] at hr
  exact ⟨fun p r hr => absurd hr (hnone p r), fun p q r r' hr => absurd hr (hnone p r), nofun, .nil,
    nofun⟩

end Numbered

end Numbers

/-! ## The order of the calls -/

section Order

variable {P : Protocol σ Proc κ} {m : Machine σ Proc Op Reply ε α}
  {S : Proc → Nat → Op → σ → Protocol.Spec σ Request ε α} {start : σ → Prop}
  {ms : List (Event σ Proc Op Reply ε α)} {c : Config σ Proc Op Reply ε α}

theorem calls_of_start {c c' : Config σ Proc Op Reply ε α} {o : Output Proc Op ε α} {p : Proc}
    {op : Op} (h : m.Step c (.start p op) o c') : c'.calls = c.calls + 1 := by
  cases h.stepped with
  | start hp => rfl

/-- A call whose number a move has left free starts after that move. -/
theorem Started.after (hm : Verified m P S) (hstart : ∀ s, start s → P.inv s)
    (h : Run (Machine.Init start) m.Step ms c) {e : Event σ Proc Op Reply ε α} (he : e ∈ ms)
    {p : Proc} {n : Nat} {op : Op} {s : σ} (hs : Started ms p n op s) (hn : e.after.calls ≤ n) :
    P.evolves e.after.shared s := by
  obtain ⟨d, hd, hevent, rfl, rfl⟩ := hs
  have htaken : d.after.calls = d.before.calls + 1 := by
    obtain ⟨newer, older, rfl⟩ := List.append_of_mem hd
    have hstep := h.older.2
    rw [hevent] at hstep
    exact calls_of_start hstep
  rcases mem_order he hd with rfl | ⟨newer, older, rfl, hold⟩ | ⟨newer, older, rfl, hold⟩
  · omega
  · have hrun := h.older
    have hlast : e.before.calls ≤ e.after.calls :=
      ((Numbered.of_run (hrun.1.move hrun.2)).calls _ List.mem_cons_self).1
    have hprevious := (Numbered.of_run hrun.1).calls d hold
    omega
  · have hrun := h.older.1
    exact (Account.of_run hm hstart hrun).evolves_last (after_mem_history hrun hold)

/-- A move of a call makes a request which its promises allow. -/
theorem asks_of_act (hm : Verified m P S) (hstart : ∀ s, start s → P.inv s)
    (h : Run (Machine.Init start) m.Step ms c) {e : Event σ Proc Op Reply ε α} (he : e ∈ ms)
    {p : Proc} (hact : e.event = .act p) :
    ∃ n op q k s, e.before.running p = some ⟨n, op, .request q k⟩ ∧ P.inv e.before.shared ∧
      (S p n op s).asks q e.before.shared ∧
      e.after.shared = (m.perform p n q e.before.shared).2 := by
  obtain ⟨newer, older, rfl⟩ := List.append_of_mem he
  obtain ⟨hrun, hstep⟩ := h.older
  have haccount := Account.of_run hm hstart hrun
  obtain ⟨before, event, output, after⟩ := e
  dsimp only at *
  subst hact
  cases hstep.stepped with
  | @act p n op q k hp =>
    obtain ⟨s, -, hmeets⟩ := haccount.running _ _ hp
    exact ⟨n, op, q, k, s, hp, haccount.inv, (hmeets _ (.refl haccount.inv)).1, rfl⟩

/-- What is restored by the end of every call which may suspend it holds while no such call is
in progress, unless one was aborted. -/
theorem restored (hm : Verified m P S) (hstart : ∀ s, start s → P.inv s)
    {J : Proc → σ → Prop} {U : Op → Prop} (hinit : ∀ p s, start s → J p s)
    (hlater : ∀ p s t, J p s → P.Later p s t → J p t)
    (hquiet : ∀ p n op s q t, ¬ U op → (S p n op s).asks q t → P.inv t → J p t →
      J p (m.perform p n q t).2)
    (hreturns : ∀ p n op s a t, U op → J p s → (S p n op s).returns a t → J p t)
    (hraises : ∀ p n op s x t, U op → J p s → (S p n op s).raises x t → J p t)
    (h : Run (Machine.Init start) m.Step ms c) {p : Proc}
    (habort : ∀ e ∈ ms, ∀ n op, U op → e.output ≠ .aborted p n op)
    (hrunning : ∀ r, c.running p = some r → ¬ U r.op) : J p c.shared := by
  have hall : (∀ e ∈ ms, ∀ n op, U op → e.output ≠ .aborted p n op) →
      ((∀ r, c.running p = some r → ¬ U r.op) → J p c.shared) ∧
        ∀ r, c.running p = some r → U r.op → ∀ s, Started ms p r.number r.op s → J p s := by
    refine h.history (P := fun ms c => (∀ e ∈ ms, ∀ n op, U op →
      e.output ≠ .aborted p n op) → ((∀ r, c.running p = some r → ¬ U r.op) →
        J p c.shared) ∧ ∀ r, c.running p = some r → U r.op →
          ∀ s, Started ms p r.number r.op s → J p s) ?_ ?_
    · exact fun c hc _ => ⟨fun _ => hinit p _ hc.1, fun r hr => by simp [hc.2 p] at hr⟩
    · intro ms c l o c' hrun ih hstep habort
      obtain ⟨hfree, hheld⟩ := ih fun e he => habort e (List.mem_cons_of_mem _ he)
      have haccount := Account.of_run hm hstart hrun
      have hnext := haccount.step hm hstep
      -- Only a start of the process itself adds to what it has started.
      have hkeep : ∀ {n op s}, (∀ op, l ≠ .start p op) →
          Started (⟨c, l, o, c'⟩ :: ms) p n op s → Started ms p n op s := by
        rintro n op s hl ⟨d, hd, hevent, hds⟩
        rcases List.mem_cons.mp hd with rfl | hd
        · exact absurd hevent (hl op)
        · exact ⟨d, hd, hevent, hds⟩
      -- A step of another process leaves the calls of this one alone.
      have hother : ∀ {q : Proc} {x : Option (Call Op Reply ε α)}, p ≠ q →
          (∀ op, l ≠ .start p op) → P.Guarantees q c.shared c'.shared →
          c'.running = Function.update c.running q x →
          ((∀ r, c'.running p = some r → ¬ U r.op) → J p c'.shared) ∧
            ∀ r, c'.running p = some r → U r.op →
              ∀ s, Started (⟨c, l, o, c'⟩ :: ms) p r.number r.op s → J p s := by
        intro q x hpq hl hg hc
        rw [hc, Function.update_of_ne hpq]
        exact ⟨fun hr => hlater p _ _ (hfree hr) (hg.later hpq),
          fun r hr hop s hs => hheld r hr hop s (hkeep hl hs)⟩
      have hquietly : P.Guarantees p c.shared c.shared := .refl haccount.inv
      cases hstep.stepped with
      | @start q op hq =>
        by_cases hpq : p = q
        · subst hpq
          have hj := hfree fun r hr => by simp [hq] at hr
          refine ⟨fun _ => hj, fun r hr _ s hs => ?_⟩
          obtain rfl : (⟨c.calls, op, m.program op⟩ : Call Op Reply ε α) = r := by simpa using hr
          obtain ⟨d, hd, hevent, hcalls, rfl⟩ := hs
          rcases List.mem_cons.mp hd with rfl | hd
          · exact hj
          · obtain ⟨newer, older, rfl⟩ := List.append_of_mem hd
            have hstart := hrun.older.2
            rw [hevent] at hstart
            have htaken := calls_of_start hstart
            have hle := ((Numbered.of_run hrun).calls d hd).2
            dsimp only at hcalls
            omega
        · exact hother hpq (by rintro op ⟨⟩; exact hpq rfl) (.refl haccount.inv) rfl
      | @act q n op a k hq =>
        by_cases hpq : p = q
        · subst hpq
          refine ⟨fun hr => ?_, fun r hr hop s hs => ?_⟩
          · have hop : ¬ U op := hr _ (Function.update_self ..)
            obtain ⟨s, -, hmeets⟩ := haccount.running _ _ hq
            have hasks := (hmeets _ (.refl haccount.inv)).1
            refine hquiet p n op s a _ hop hasks haccount.inv (hfree fun r hr => ?_)
            obtain rfl : _ = r := Option.some.inj (hq.symm.trans hr)
            exact hop
          · obtain rfl : (⟨n, op, k (m.perform p n a c.shared).1⟩ : Call Op Reply ε α) = r := by
              simpa using hr
            exact hheld _ hq hop s (hkeep nofun hs)
        · obtain ⟨s, -, hmeets⟩ := haccount.running _ _ hq
          exact hother hpq nofun (hmeets _ (.refl haccount.inv)).2.1 rfl
      | @returned q n op a hq =>
        by_cases hpq : p = q
        · subst hpq
          refine ⟨fun _ => ?_, fun r hr => by simp at hr⟩
          by_cases hop : U op
          · obtain ⟨s, hs, hpost⟩ := hnext.returned _ List.mem_cons_self p n op a rfl
            exact hreturns p n op s a _ hop (hheld _ hq hop s (hkeep nofun hs)) hpost
          · refine hfree fun r hr => ?_
            obtain rfl : _ = r := Option.some.inj (hq.symm.trans hr)
            exact hop
        · exact hother hpq nofun (.refl haccount.inv) rfl
      | @raised q n op x hq =>
        by_cases hpq : p = q
        · subst hpq
          refine ⟨fun _ => ?_, fun r hr => by simp at hr⟩
          by_cases hop : U op
          · obtain ⟨s, hs, hpost⟩ := hnext.raised _ List.mem_cons_self p n op x rfl
            exact hraises p n op s x _ hop (hheld _ hq hop s (hkeep nofun hs)) hpost
          · refine hfree fun r hr => ?_
            obtain rfl : _ = r := Option.some.inj (hq.symm.trans hr)
            exact hop
        · exact hother hpq nofun (.refl haccount.inv) rfl
      | @aborted q r hq =>
        by_cases hpq : p = q
        · subst hpq
          refine ⟨fun _ => hfree fun r' hr' hop => ?_, fun r hr => by simp at hr⟩
          obtain rfl : r = r' := Option.some.inj (hq.symm.trans hr')
          exact habort _ List.mem_cons_self r.number r.op hop rfl
        · exact hother hpq nofun (.refl haccount.inv) rfl
  exact (hall habort).1 hrunning

end Order

/-! ## The requests of the calls -/

/-- A call in progress makes only requests which its operation may make. -/
theorem uses_of_run {m : Machine σ Proc Op Reply ε α} {allowed : Op → Request → Prop}
    (hm : ∀ op, (m.program op).Uses (allowed op)) {start : σ → Prop}
    {ms : List (Event σ Proc Op Reply ε α)} {c : Config σ Proc Op Reply ε α}
    (h : Run (Machine.Init start) m.Step ms c) {p : Proc} {r : Call Op Reply ε α}
    (hr : c.running p = some r) : r.rest.Uses (allowed r.op) := by
  refine h.reachable.invariant (P := fun c => ∀ p r, c.running p = some r →
    r.rest.Uses (allowed r.op)) (fun c hc p r hr => ?_) (fun c l o c' _ hc hs => ?_) p r hr
  · exact absurd (hc.2 p) (by simp [hr])
  · intro q r hr
    have hmoved : ∀ {p : Proc} {x : Option (Call Op Reply ε α)},
        (∀ t, x = some t → t.rest.Uses (allowed t.op)) →
        Function.update c.running p x q = some r → r.rest.Uses (allowed r.op) := by
      intro p x hx hr
      by_cases hqp : q = p
      · subst hqp
        rw [Function.update_self] at hr
        exact hx r hr
      · rw [Function.update_of_ne hqp] at hr
        exact hc q r hr
    cases hs.stepped with
    | start hp => exact hmoved (by rintro t ⟨⟩; exact hm _) hr
    | act hp => exact hmoved (by rintro t ⟨⟩; exact (hc _ _ hp).2 _) hr
    | returned hp => exact hmoved (x := none) nofun hr
    | raised hp => exact hmoved (x := none) nofun hr
    | aborted hp => exact hmoved (x := none) nofun hr

end Interleaving
