import MonitorController.Values.Identity

/-! # Spellings of identities

The language-neutral spelling of an action identity, which worker requests and
recovery use as a key. It determines the identity.
-/

namespace MonitorController

def ActionKind.value : ActionKind → String
  | .plan => "plan"
  | .probe => "probe"
  | .application => "application"
  | .preparation => "preparation"
  | .finalization => "finalization"

def ActionLifecycle.value : ActionLifecycle → String
  | .admitted => "admitted"
  | .dispatched => "dispatched"
  | .stopping => "stopping"
  | .resultPending => "result_pending"
  | .completed => "completed"
  | .failed => "failed"
  | .cancelled => "cancelled"
  | .unknown => "unknown"
  | .timedOut => "timed_out"

/-- The hexadecimal digit at a position of a UUID, counted from the most significant one. -/
def hexDigit (u : UUID) (i : Nat) : Char :=
  Nat.digitChar (u.extractLsb' (4 * (31 - i)) 4).toNat

/-- The thirty-two digits of a UUID, as Python's `UUID.hex` gives them. -/
def uuidDigits (u : UUID) : List Char :=
  (List.range 32).map (hexDigit u)

def ActionId.value (a : ActionId) : String :=
  a.kind.value ++ "-" ++ String.ofList (uuidDigits a.controllerInstance.value) ++ "-" ++
    toString a.sequence

theorem digitChar_inj {m n : BitVec 4} (h : Nat.digitChar m.toNat = Nat.digitChar n.toNat) :
    m = n := by
  revert m n
  decide

theorem uuidDigits_inj {u v : UUID} (h : uuidDigits u = uuidDigits v) : u = v := by
  have hnibble : ∀ i < 32, u.extractLsb' (4 * (31 - i)) 4 = v.extractLsb' (4 * (31 - i)) 4 := by
    intro i hi
    exact digitChar_inj (List.map_inj_left.mp h i (List.mem_range.mpr hi))
  refine BitVec.eq_of_getLsbD_eq fun j hj => ?_
  have hbit : ∀ w : UUID, (w.extractLsb' (4 * (31 - (31 - j / 4))) 4).getLsbD (j % 4) =
      w.getLsbD j := by
    intro w
    rw [BitVec.getLsbD_extractLsb']
    have hlt : j % 4 < 4 := Nat.mod_lt _ (by decide)
    have hsplit : 4 * (31 - (31 - j / 4)) + j % 4 = j := by omega
    simp [hlt, hsplit]
  rw [← hbit u, ← hbit v, hnibble (31 - j / 4) (by omega)]

theorem length_uuidDigits (u : UUID) : (uuidDigits u).length = 32 := by
  simp [uuidDigits]

theorem ActionKind.dash_notMem (k : ActionKind) : '-' ∉ k.value.toList := by
  cases k <;> decide

theorem ActionKind.value_inj {k l : ActionKind} (h : k.value = l.value) : k = l := by
  cases k <;> cases l <;> first | rfl | exact absurd h (by decide)

theorem takeWhile_dash {l r : List Char} (h : '-' ∉ l) :
    (l ++ '-' :: r).takeWhile (· ≠ '-') = l := by
  have hkeep : ∀ c ∈ l, decide (c ≠ '-') = true := by
    intro c hc
    exact decide_eq_true fun hd => h (hd ▸ hc)
  rw [List.takeWhile_append_of_pos hkeep]
  simp

theorem ActionId.value_inj {a b : ActionId} (h : a.value = b.value) : a = b := by
  have hchars : a.kind.value.toList ++ '-' ::
        (uuidDigits a.controllerInstance.value ++ '-' :: (toString a.sequence).toList) =
      b.kind.value.toList ++ '-' ::
        (uuidDigits b.controllerInstance.value ++ '-' :: (toString b.sequence).toList) := by
    simpa [ActionId.value] using congrArg String.toList h
  have hkind : a.kind.value.toList = b.kind.value.toList := by
    have hprefix := congrArg (List.takeWhile (· ≠ '-')) hchars
    rwa [takeWhile_dash a.kind.dash_notMem, takeWhile_dash b.kind.dash_notMem] at hprefix
  rw [hkind] at hchars
  have hrest := List.cons_inj_right _ |>.mp (List.append_cancel_left hchars)
  obtain ⟨huuid, htail⟩ := List.append_inj hrest (by simp only [length_uuidDigits])
  have hdigits : Nat.toDigits 10 a.sequence = Nat.toDigits 10 b.sequence := by
    simpa using htail
  have hsequence := congrArg (Nat.ofDigitChars 10 · 0) hdigits
  simp only [Nat.ofDigitChars_ten_toDigits] at hsequence
  rcases a with ⟨⟨u⟩, k, m, hm⟩
  rcases b with ⟨⟨v⟩, l, n, hn⟩
  obtain rfl : u = v := uuidDigits_inj huuid
  obtain rfl : k = l := ActionKind.value_inj (String.toList_inj.mp hkind)
  obtain rfl : m = n := hsequence
  rfl

end MonitorController
