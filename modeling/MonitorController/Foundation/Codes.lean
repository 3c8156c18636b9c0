import Mathlib.Data.List.Basic

/-! # Codes

A code gives a word to every letter, which may depend on the letter's position.
If no word of it begins another one, a text is determined by its encoding.
-/

universe u v

namespace Codes

variable {α : Type u} {β : Type v}

/-- The word of a letter can be told from what follows it. -/
def PrefixFree (code : α → List β) : Prop :=
  ∀ a b l m, code a ++ l = code b ++ m → a = b

def encodeFrom (code : Nat → α → List β) : Nat → List α → List β
  | _, [] => []
  | i, a :: text => code i a ++ encodeFrom code (i + 1) text

variable {code : Nat → α → List β} {i : Nat} {text other : List α}

theorem exists_of_mem_encodeFrom {b : β} (h : b ∈ encodeFrom code i text) :
    ∃ j, ∃ a ∈ text, b ∈ code j a := by
  induction text generalizing i with
  | nil => cases h
  | cons a text ih =>
    obtain h | h := List.mem_append.mp h
    · exact ⟨i, a, List.mem_cons_self, h⟩
    · obtain ⟨j, c, hc, hb⟩ := ih h
      exact ⟨j, c, List.mem_cons_of_mem a hc, hb⟩

theorem encodeFrom_inj (hne : ∀ i a, code i a ≠ []) (hcode : ∀ i, PrefixFree (code i))
    (h : encodeFrom code i text = encodeFrom code i other) : text = other := by
  induction text generalizing i other with
  | nil =>
    cases other with
    | nil => rfl
    | cons b other => exact absurd (List.append_eq_nil_iff.mp h.symm).1 (hne i b)
  | cons a text ih =>
    cases other with
    | nil => exact absurd (List.append_eq_nil_iff.mp h).1 (hne i a)
    | cons b other =>
      obtain rfl := hcode i a b _ _ h
      rw [ih (List.append_cancel_left h)]

/-- `text.encode("utf-8")`. -/
def utf8 (text : List Char) : List UInt8 := text.flatMap String.utf8EncodeChar

theorem utf8_inj {text other : List Char} (h : utf8 text = utf8 other) : text = other := by
  have hbytes : (String.ofList text).toByteArray = (String.ofList other).toByteArray := by
    rw [String.toByteArray_ofList, String.toByteArray_ofList]
    exact congrArg List.toByteArray h
  exact String.ofList_inj.mp (String.toByteArray_inj.mp hbytes)

theorem utf8_ne_nil {text : List Char} (h : text ≠ []) : utf8 text ≠ [] :=
  fun hnil => h (utf8_inj (hnil.trans rfl))

theorem exists_of_mem_utf8 {text : List Char} (h : ∀ c ∈ text, c.toNat < 128) {b : UInt8}
    (hb : b ∈ utf8 text) : ∃ c ∈ text, b.toNat = c.toNat := by
  obtain ⟨c, hc, hb⟩ := List.mem_flatMap.mp hb
  have hsmall := h c hc
  have hcode : String.utf8EncodeChar c = [UInt8.ofNat c.toNat] := by
    unfold String.utf8EncodeChar
    exact if_pos (Nat.le_of_lt_succ hsmall)
  rw [hcode, List.mem_singleton] at hb
  refine ⟨c, hc, ?_⟩
  rw [hb, UInt8.toNat_ofNat']
  exact Nat.mod_eq_of_lt (by omega)

end Codes
