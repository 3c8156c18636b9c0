import Mathlib.Tactic.Basic

/-! # Programs of requests

A program asks its environment one request after another and goes on with the
reply; it returns a value or raises an error. What the environment answers is
left open, so that one program runs on a shared state, among others, or against
arbitrary replies.
-/

namespace Programs

variable {Request : Type} {Reply : Request → Type} {ε α β : Type}

inductive Program (Reply : Request → Type) (ε α : Type) : Type
  | done (a : α)
  | raise (e : ε)
  | request (q : Request) (k : Reply q → Program Reply ε α)

namespace Program

def ask (q : Request) : Program Reply ε (Reply q) := .request q .done

protected def bind : Program Reply ε α → (α → Program Reply ε β) → Program Reply ε β
  | .done a, f => f a
  | .raise e, _ => .raise e
  | .request q k, f => .request q fun r => (k r).bind f

def handle : Program Reply ε α → (ε → Program Reply ε α) → Program Reply ε α
  | .done a, _ => .done a
  | .raise e, h => h e
  | .request q k, h => .request q fun r => (k r).handle h

instance : Monad (Program Reply ε) where
  pure := .done
  bind := Program.bind

/-- The program returns the value of a result, or raises its error. -/
def lift : Except ε α → Program Reply ε α
  | .ok a => .done a
  | .error e => .raise e

/-- The condition has to hold for the program to go on. -/
def require (p : Prop) [Decidable p] (e : ε) : Program Reply ε Unit :=
  if p then .done () else .raise e

/-- Every request which the program may make is allowed, whatever the replies are. -/
def Uses (allowed : Request → Prop) : Program Reply ε α → Prop
  | .done _ => True
  | .raise _ => True
  | .request q k => allowed q ∧ ∀ r, (k r).Uses allowed

namespace Uses

variable {allowed : Request → Prop} {p : Program Reply ε α}

theorem bind {f : α → Program Reply ε β} (hp : p.Uses allowed)
    (hf : ∀ a, (f a).Uses allowed) : (p >>= f).Uses allowed := by
  induction p with
  | done a => exact hf a
  | raise e => trivial
  | request q k ih => exact ⟨hp.1, fun r => ih r (hp.2 r)⟩

theorem all (h : ∀ q, allowed q) (p : Program Reply ε α) : p.Uses allowed := by
  induction p with
  | done a => trivial
  | raise e => trivial
  | request q k ih => exact ⟨h q, ih⟩

theorem mono {others : Request → Prop} (hp : p.Uses allowed)
    (h : ∀ q, allowed q → others q) : p.Uses others := by
  induction p with
  | done a => trivial
  | raise e => trivial
  | request q k ih => exact ⟨h q hp.1, fun r => ih r (hp.2 r)⟩

theorem handle {h : ε → Program Reply ε α} (hp : p.Uses allowed)
    (hh : ∀ e, (h e).Uses allowed) : (p.handle h).Uses allowed := by
  induction p with
  | done a => trivial
  | raise e => exact hh e
  | request q k ih => exact ⟨hp.1, fun r => ih r (hp.2 r)⟩

theorem ask {q : Request} (hq : allowed q) :
    (Program.ask q : Program Reply ε (Reply q)).Uses allowed :=
  ⟨hq, fun _ => trivial⟩

theorem lift (x : Except ε α) : (Program.lift x : Program Reply ε α).Uses allowed := by
  cases x with
  | error e => trivial
  | ok a => trivial

theorem require (c : Prop) [Decidable c] (e : ε) :
    (Program.require c e : Program Reply ε Unit).Uses allowed := by
  unfold Program.require
  split
  · trivial
  · trivial

theorem forM {γ : Type} {f : γ → Program Reply ε PUnit} {l : List γ}
    (hf : ∀ c ∈ l, (f c).Uses allowed) : (l.forM f).Uses allowed := by
  induction l with
  | nil => trivial
  | cons c l ih =>
    refine (hf c List.mem_cons_self).bind fun _ => ?_
    exact ih fun d hd => hf d (List.mem_cons_of_mem _ hd)

end Uses

end Program

end Programs
