import Mathlib.Data.List.Basic

/-! # Quoted text

Quotes of either kind keep what they enclose from being read. What is left of a
text is its bare part; an argument without quotes is left as it is outside of
quotes and vanishes inside of them.
-/

namespace Quoting

def isQuote (c : Char) : Bool := c = '\x27' || c = '\x22'

/-- The characters outside quotes, from the quote which is open. -/
def bareText : Option Char → List Char → List Char
  | _, [] => []
  | none, c :: rest => if isQuote c then bareText (some c) rest else c :: bareText none rest
  | some q, c :: rest => if c = q then bareText none rest else bareText (some q) rest

/-- The braces still open after a text, unless it closes more than are open. -/
def braceDepth : Nat → List Char → Option Nat
  | n, [] => some n
  | n, c :: rest =>
    if c = '{' then braceDepth (n + 1) rest
    else if c = '}' then (if n = 0 then none else braceDepth (n - 1) rest)
    else braceDepth n rest

/-- Neither quotes nor braces. -/
def Unquoted (a : List Char) : Prop := ∀ c ∈ a, isQuote c = false ∧ c ≠ '{' ∧ c ≠ '}'

instance (a : List Char) : Decidable (Unquoted a) := List.decidableBAll _ a

variable {a : List Char}

theorem Unquoted.append {b : List Char} (ha : Unquoted a) (hb : Unquoted b) : Unquoted (a ++ b) :=
  fun c hc => (List.mem_append.mp hc).elim (ha c) (hb c)

theorem Unquoted.tail {c : Char} (h : Unquoted (c :: a)) : Unquoted a :=
  fun d hd => h d (List.mem_cons_of_mem _ hd)

theorem Unquoted.bareText (h : Unquoted a) (rest : List Char) :
    Quoting.bareText none (a ++ rest) = a ++ Quoting.bareText none rest := by
  induction a with
  | nil => rfl
  | cons c a ih =>
    have hc := (h c List.mem_cons_self).1
    simp [Quoting.bareText, hc, ih h.tail]

theorem Unquoted.quoted (h : Unquoted a) {q : Char} (hq : isQuote q = true) (rest : List Char) :
    Quoting.bareText (some q) (a ++ rest) = Quoting.bareText (some q) rest := by
  induction a with
  | nil => rfl
  | cons c a ih =>
    have hne : c ≠ q := by
      rintro rfl
      have hc := (h c List.mem_cons_self).1
      rw [hq] at hc
      cases hc
    simp [Quoting.bareText, hne, ih h.tail]

theorem Unquoted.braceDepth (h : Unquoted a) (n : Nat) (rest : List Char) :
    Quoting.braceDepth n (a ++ rest) = Quoting.braceDepth n rest := by
  induction a with
  | nil => rfl
  | cons c a ih =>
    obtain ⟨-, hopen, hclose⟩ := h c List.mem_cons_self
    simp [Quoting.braceDepth, hopen, hclose, ih h.tail]

end Quoting
