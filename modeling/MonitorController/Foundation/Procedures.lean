import Mathlib.Order.Defs.Unbundled
import MonitorController.Foundation.Programs

/-! # Recursive procedures in an environment

A procedure works on a memory which its environment may change too, but only
while it is asked something; the world outside is the environment's own. An
execution lists the exchanges with the environment and may be cut anywhere, so
that what holds of executions also holds when the process dies.
-/

namespace Procedures

open Programs

variable {μ ω Call Request : Type} {Reply : Request → Type} {ε α β : Type}

/-- What a procedure does in one step. -/
inductive Op (μ Call Request : Type)
  | read
  | modify (f : μ → μ)
  | call (c : Call)
  | ask (q : Request)

abbrev Answer (μ Call : Type) {Request : Type} (Reply : Request → Type) : Op μ Call Request → Type
  | .read => μ
  | .modify _ => Unit
  | .call _ => Unit
  | .ask q => Reply q

abbrev Code (μ Call : Type) {Request : Type} (Reply : Request → Type) (ε α : Type) :=
  Program (Answer μ Call Reply) ε α

namespace Code

def read : Code μ Call Reply ε μ := Program.ask Op.read

def modify (f : μ → μ) : Code μ Call Reply ε Unit := Program.ask (Op.modify f)

def call (c : Call) : Code μ Call Reply ε Unit := Program.ask (Op.call c)

def perform (q : Request) : Code μ Call Reply ε (Reply q) := Program.ask (Op.ask q)

end Code

structure Config (μ ω : Type) where
  memory : μ
  world : ω

/-- One request of the procedure, with the configurations around it. -/
structure Exchange (μ ω : Type) {Request : Type} (Reply : Request → Type) where
  before : Config μ ω
  request : Request
  reply : Reply request
  after : Config μ ω

/-- How an execution ends: the process may also die. -/
inductive Ending (ε α : Type)
  | returned (a : α)
  | raised (e : ε)
  | cut

/-- The bodies of the procedures, and the environment. -/
structure System (μ ω Call : Type) {Request : Type} (Reply : Request → Type) (ε : Type) where
  body : Call → Code μ Call Reply ε Unit
  answers : Config μ ω → (q : Request) → Reply q → Config μ ω → Prop

/-- The executions of some code. -/
inductive Exec (S : System μ ω Call Reply ε) : {α : Type} → Code μ Call Reply ε α → Config μ ω →
    List (Exchange μ ω Reply) → Ending ε α → Config μ ω → Prop
  | cut {α : Type} {p : Code μ Call Reply ε α} {c : Config μ ω} : Exec S p c [] .cut c
  | done {α : Type} {a : α} {c : Config μ ω} : Exec S (.done a) c [] (.returned a) c
  | raise {α : Type} {e : ε} {c : Config μ ω} :
    Exec S (.raise e : Code μ Call Reply ε α) c [] (.raised e) c
  | read {α : Type} {k : μ → Code μ Call Reply ε α} {c t o c'} (h : Exec S (k c.memory) c t o c') :
    Exec S (.request .read k) c t o c'
  | modify {α : Type} {f : μ → μ} {k : Unit → Code μ Call Reply ε α} {c t o c'}
    (h : Exec S (k ()) ⟨f c.memory, c.world⟩ t o c') : Exec S (.request (.modify f) k) c t o c'
  | ask {α : Type} {q : Request} {r : Reply q} {k : Reply q → Code μ Call Reply ε α} {c c₁ t o c'}
    (hr : S.answers c q r c₁) (h : Exec S (k r) c₁ t o c') :
    Exec S (.request (.ask q) k) c (⟨c, q, r, c₁⟩ :: t) o c'
  | called {α : Type} {i : Call} {k : Unit → Code μ Call Reply ε α} {c t c₁ t' o c'}
    (hi : Exec S (S.body i) c t (.returned ()) c₁) (h : Exec S (k ()) c₁ t' o c') :
    Exec S (.request (.call i) k) c (t ++ t') o c'
  | calledRaised {α : Type} {i : Call} {e : ε} {k : Unit → Code μ Call Reply ε α} {c t c'}
    (hi : Exec S (S.body i) c t (.raised e) c') : Exec S (.request (.call i) k) c t (.raised e) c'
  | calledCut {α : Type} {i : Call} {k : Unit → Code μ Call Reply ε α} {c t c'}
    (hi : Exec S (S.body i) c t .cut c') : Exec S (.request (.call i) k) c t .cut c'

/-- The execution in an environment which answers by a function, cut when the fuel is spent. -/
def simulate (body : Call → Code μ Call Reply ε Unit)
    (respond : Config μ ω → (q : Request) → Reply q × Config μ ω) :
    Nat → {α : Type} → Code μ Call Reply ε α → Config μ ω →
      List (Exchange μ ω Reply) × Ending ε α × Config μ ω
  | 0, _, _, c => ([], .cut, c)
  | _ + 1, _, .done a, c => ([], .returned a, c)
  | _ + 1, _, .raise e, c => ([], .raised e, c)
  | n + 1, _, .request .read k, c => simulate body respond n (k c.memory) c
  | n + 1, _, .request (.modify f) k, c => simulate body respond n (k ()) ⟨f c.memory, c.world⟩
  | n + 1, _, .request (.ask q) k, c =>
    let next := respond c q
    let later := simulate body respond n (k next.1) next.2
    (⟨c, q, next.1, next.2⟩ :: later.1, later.2)
  | n + 1, _, .request (.call i) k, c =>
    match simulate body respond n (body i) c with
    | (t, .returned (), c₁) =>
      let later := simulate body respond n (k ()) c₁
      (t ++ later.1, later.2)
    | (t, .raised e, c₁) => (t, .raised e, c₁)
    | (t, .cut, c₁) => (t, .cut, c₁)

theorem exec_simulate {S : System μ ω Call Reply ε}
    {respond : Config μ ω → (q : Request) → Reply q × Config μ ω}
    (h : ∀ c q, S.answers c q (respond c q).1 (respond c q).2) (n : Nat) :
    ∀ {α : Type} (p : Code μ Call Reply ε α) (c : Config μ ω),
      Exec S p c (simulate S.body respond n p c).1 (simulate S.body respond n p c).2.1
        (simulate S.body respond n p c).2.2 := by
  induction n with
  | zero => exact fun p c => .cut
  | succ n ih =>
    intro α p c
    cases p with
    | done a => exact .done
    | raise e => exact .raise
    | request q k =>
      cases q with
      | read => exact .read (ih _ _)
      | modify f => exact .modify (ih _ _)
      | ask q => exact .ask (h c q) (ih _ _)
      | call i =>
        have hi := ih (S.body i) c
        rw [simulate]
        split
        next t c₁ heq =>
          rw [heq] at hi
          exact .called hi (ih _ _)
        next t e c₁ heq =>
          rw [heq] at hi
          exact .calledRaised hi
        next t c₁ heq =>
          rw [heq] at hi
          exact .calledCut hi

/-- What the calls of the procedures need and give, when which request may be made, and which
exceptions may leave them. -/
structure Contract (μ ω Call Request ε : Type) where
  pre : Call → Config μ ω → Prop
  post : Call → Config μ ω → Config μ ω → Prop
  asks : Request → Config μ ω → Prop
  raises : ε → Config μ ω → Prop

/-- What holds at the end of an execution. -/
def Contract.Ends (C : Contract μ ω Call Request ε) (Q : α → Config μ ω → Prop) :
    Ending ε α → Config μ ω → Prop
  | .returned a, c => Q a c
  | .raised e, c => C.raises e c
  | .cut, _ => True

/-- Whatever the environment answers, the code keeps to the contract and ends in the
postcondition. -/
def Meets (answers : Config μ ω → (q : Request) → Reply q → Config μ ω → Prop)
    (C : Contract μ ω Call Request ε) (Q : α → Config μ ω → Prop) :
    Code μ Call Reply ε α → Config μ ω → Prop
  | .done a, c => Q a c
  | .raise e, c => C.raises e c
  | .request .read k, c => Meets answers C Q (k c.memory) c
  | .request (.modify f) k, c => Meets answers C Q (k ()) ⟨f c.memory, c.world⟩
  | .request (.call i) k, c =>
    C.pre i c ∧ ∀ c', C.post i c c' → Meets answers C Q (k ()) c'
  | .request (.ask q) k, c =>
    C.asks q c ∧ ∀ r c', answers c q r c' → Meets answers C Q (k r) c'

variable {answers : Config μ ω → (q : Request) → Reply q → Config μ ω → Prop}
  {C : Contract μ ω Call Request ε} {S : System μ ω Call Reply ε}

namespace Meets

variable {Q R : α → Config μ ω → Prop} {c : Config μ ω}

theorem mono {p : Code μ Call Reply ε α} (h : Meets answers C Q p c)
    (hQR : ∀ a c', Q a c' → R a c') : Meets answers C R p c := by
  induction p generalizing c with
  | done a => exact hQR a c h
  | raise e => exact h
  | request q k ih =>
    cases q with
    | read => exact ih _ h
    | modify f => exact ih _ h
    | call i => exact ⟨h.1, fun c' hc' => ih _ (h.2 c' hc')⟩
    | ask q => exact ⟨h.1, fun r c' hc' => ih _ (h.2 r c' hc')⟩

theorem bind_iff {p : Code μ Call Reply ε α} {f : α → Code μ Call Reply ε β}
    {Q : β → Config μ ω → Prop} :
    Meets answers C Q (p >>= f) c ↔ Meets answers C (fun a c' => Meets answers C Q (f a) c') p c := by
  induction p generalizing c with
  | done a => rfl
  | raise e => rfl
  | request q k ih =>
    cases q with
    | read => exact ih _
    | modify f => exact ih _
    | call i => exact and_congr_right fun _ => forall_congr' fun c' => imp_congr_right fun _ => ih _
    | ask q =>
      exact and_congr_right fun _ => forall_congr' fun r => forall_congr' fun c' =>
        imp_congr_right fun _ => ih _

theorem bind {p : Code μ Call Reply ε α} {f : α → Code μ Call Reply ε β}
    {R : β → Config μ ω → Prop} (h : Meets answers C Q p c)
    (hf : ∀ a c', Q a c' → Meets answers C R (f a) c') : Meets answers C R (p >>= f) c :=
  bind_iff.mpr (h.mono hf)

theorem done {a : α} (h : Q a c) :
    Meets answers C Q (.done a : Code μ Call Reply ε α) c := h

theorem pure {a : α} (h : Q a c) :
    Meets answers C Q (Pure.pure a : Code μ Call Reply ε α) c := h

theorem raise {e : ε} (h : C.raises e c) :
    Meets answers C Q (.raise e : Code μ Call Reply ε α) c := h

theorem read {f : μ → Code μ Call Reply ε α} (h : Meets answers C Q (f c.memory) c) :
    Meets answers C Q (Code.read >>= f) c := h

theorem modify {g : μ → μ} {f : Unit → Code μ Call Reply ε α}
    (h : Meets answers C Q (f ()) ⟨g c.memory, c.world⟩) :
    Meets answers C Q (Code.modify g >>= f) c := h

theorem call {i : Call} {f : Unit → Code μ Call Reply ε α} (hpre : C.pre i c)
    (h : ∀ c', C.post i c c' → Meets answers C Q (f ()) c') :
    Meets answers C Q (Code.call i >>= f) c := ⟨hpre, h⟩

theorem perform {q : Request} {f : Reply q → Code μ Call Reply ε α} (hq : C.asks q c)
    (h : ∀ r c', answers c q r c' → Meets answers C Q (f r) c') :
    Meets answers C Q (Code.perform q >>= f) c := ⟨hq, h⟩

theorem last {p : Code μ Call Reply ε α} (h : Meets answers C Q (p >>= .done) c) :
    Meets answers C Q p c := bind_iff.mp h

end Meets

/-- The code keeps an invariant and moves the configuration along a relation. -/
def Sustains (answers : Config μ ω → (q : Request) → Reply q → Config μ ω → Prop)
    (C : Contract μ ω Call Request ε) (I : Config μ ω → Prop)
    (R : Config μ ω → Config μ ω → Prop) (p : Code μ Call Reply ε α) : Prop :=
  ∀ c, I c → Meets answers C (fun _ c' => I c' ∧ R c c') p c

namespace Sustains

variable {I : Config μ ω → Prop} {R : Config μ ω → Config μ ω → Prop}

theorem perform {q : Request} (hq : ∀ c, I c → C.asks q c)
    (h : ∀ c r c', I c → answers c q r c' → I c' ∧ R c c') :
    Sustains answers C I R (Code.perform q : Code μ Call Reply ε (Reply q)) :=
  fun c hc => ⟨hq c hc, fun r c' hr => h c r c' hc hr⟩

theorem call {i : Call} (hpre : ∀ c, I c → C.pre i c)
    (h : ∀ c c', I c → C.post i c c' → I c' ∧ R c c') :
    Sustains answers C I R (Code.call i : Code μ Call Reply ε Unit) :=
  fun c hc => ⟨hpre c hc, fun c' hr => h c c' hc hr⟩

theorem modify {f : μ → μ}
    (h : ∀ c, I c → I ⟨f c.memory, c.world⟩ ∧ R c ⟨f c.memory, c.world⟩) :
    Sustains answers C I R (Code.modify f : Code μ Call Reply ε Unit) := h

theorem read {f : μ → Code μ Call Reply ε α}
    (h : ∀ c, I c → Meets answers C (fun _ c' => I c' ∧ R c c') (f c.memory) c) :
    Sustains answers C I R (Code.read >>= f) := h

theorem followed {p : Code μ Call Reply ε α} (hp : Sustains answers C I R p) {c : Config μ ω}
    (hc : I c) {f : α → Code μ Call Reply ε β} {Q : β → Config μ ω → Prop}
    (h : ∀ a c', I c' → R c c' → Meets answers C Q (f a) c') : Meets answers C Q (p >>= f) c :=
  (hp c hc).bind fun a c' hc' => h a c' hc'.1 hc'.2

variable [IsPreorder (Config μ ω) R]

theorem pure (a : α) : Sustains answers C I R (Pure.pure a : Code μ Call Reply ε α) :=
  fun c hc => ⟨hc, Std.Refl.refl c⟩

theorem bind {p : Code μ Call Reply ε α} {f : α → Code μ Call Reply ε β}
    (hp : Sustains answers C I R p) (hf : ∀ a, Sustains answers C I R (f a)) :
    Sustains answers C I R (p >>= f) := by
  intro c hc
  refine (hp c hc).bind ?_
  rintro a c' ⟨hc', hcc'⟩
  refine (hf a c' hc').mono ?_
  rintro b c'' ⟨hc'', hcc''⟩
  exact ⟨hc'', IsTrans.trans (r := R) _ _ _ hcc' hcc''⟩

theorem forM {γ : Type} {f : γ → Code μ Call Reply ε PUnit} {l : List γ}
    (hf : ∀ a ∈ l, Sustains answers C I R (f a)) : Sustains answers C I R (l.forM f) := by
  induction l with
  | nil => exact pure _
  | cons a l ih =>
    refine (hf a List.mem_cons_self).bind fun _ => ?_
    exact ih fun b hb => hf b (List.mem_cons_of_mem _ hb)

end Sustains

namespace Exec

variable {p : Code μ Call Reply ε α} {c c' : Config μ ω} {t : List (Exchange μ ω Reply)}
  {o : Ending ε α}

/-- The world changes only in exchanges. -/
theorem world (h : Exec S p c t o c') :
    c'.world = c.world ∨ ∃ x ∈ t, c'.world = x.after.world := by
  induction h with
  | cut => exact .inl rfl
  | done => exact .inl rfl
  | raise => exact .inl rfl
  | read h ih => exact ih
  | modify h ih => exact ih
  | ask hr h ih =>
    rcases ih with heq | ⟨x, hx, heq⟩
    · exact .inr ⟨_, List.mem_cons_self, heq⟩
    · exact .inr ⟨x, List.mem_cons_of_mem _ hx, heq⟩
  | called hi h ihi ih =>
    rcases ih with heq | ⟨x, hx, heq⟩
    · rcases ihi with heqi | ⟨x, hx, heqi⟩
      · exact .inl (heq.trans heqi)
      · exact .inr ⟨x, List.mem_append_left _ hx, heq.trans heqi⟩
    · exact .inr ⟨x, List.mem_append_right _ hx, heq⟩
  | calledRaised hi ih => exact ih
  | calledCut hi ih => exact ih

theorem answered (h : Exec S p c t o c') :
    ∀ x ∈ t, S.answers x.before x.request x.reply x.after := by
  induction h with
  | cut => simp
  | done => simp
  | raise => simp
  | read h ih => exact ih
  | modify h ih => exact ih
  | ask hr h ih => exact List.forall_mem_cons.mpr ⟨hr, ih⟩
  | called hi h ihi ih => exact List.forall_mem_append.mpr ⟨ihi, ih⟩
  | calledRaised hi ih => exact ih
  | calledCut hi ih => exact ih

/-- Procedures whose bodies meet their contract keep to it in every execution. -/
theorem keeps (hbody : ∀ i c, C.pre i c → Meets S.answers C (fun _ => C.post i c) (S.body i) c)
    (h : Exec S p c t o c') {Q : α → Config μ ω → Prop} (hp : Meets S.answers C Q p c) :
    (∀ x ∈ t, C.asks x.request x.before) ∧ C.Ends Q o c' := by
  induction h with
  | cut => exact ⟨by simp, trivial⟩
  | done => exact ⟨by simp, hp⟩
  | raise => exact ⟨by simp, hp⟩
  | read h ih => exact ih hp
  | modify h ih => exact ih hp
  | ask hr h ih =>
    obtain ⟨hasks, hend⟩ := ih (hp.2 _ _ hr)
    exact ⟨List.forall_mem_cons.mpr ⟨hp.1, hasks⟩, hend⟩
  | called hi h ihi ih =>
    obtain ⟨hasksi, hpost⟩ := ihi (hbody _ _ hp.1)
    obtain ⟨hasks, hend⟩ := ih (hp.2 _ hpost)
    exact ⟨List.forall_mem_append.mpr ⟨hasksi, hasks⟩, hend⟩
  | calledRaised hi ih => exact ih (hbody _ _ hp.1)
  | calledCut hi ih => exact ih (hbody _ _ hp.1)

end Exec

end Procedures
