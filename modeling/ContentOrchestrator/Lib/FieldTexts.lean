import Mathlib.Data.List.Basic

/-! # Fields in a text

Bytes are written as pairs of lower-case hexadecimal digits, and a text is cut at the
first few separators. Fields without the separator come back as they were put in, and
the digits tell the bytes. -/

namespace ContentOrchestrator.Lib

/-! ## Hexadecimal digits -/

def hexDigit (d : Fin 16) : Char := ("0123456789abcdef".toList).getD d '0'

def hexDigits (b : UInt8) : List Char :=
  [hexDigit (Fin.ofNat 16 (b.toNat / 16)), hexDigit (Fin.ofNat 16 b.toNat)]

def hex (bytes : List UInt8) : List Char := bytes.flatMap hexDigits

theorem hexDigit_injective : ∀ {d e : Fin 16}, hexDigit d = hexDigit e → d = e := by
  decide

theorem hexDigits_injective {a b : UInt8} (h : hexDigits a = hexDigits b) : a = b := by
  obtain ⟨hhigh, hlow⟩ := List.cons.inj h
  have hhigh := congrArg Fin.val (hexDigit_injective hhigh)
  have hlow := congrArg Fin.val (hexDigit_injective (List.cons.inj hlow).1)
  have ha := a.toNat_lt
  have hb := b.toNat_lt
  simp only [Fin.ofNat] at hhigh hlow
  apply UInt8.toNat_inj.mp
  omega

theorem hex_injective : ∀ {a b : List UInt8}, hex a = hex b → a = b
  | [], [], _ => rfl
  | [], _ :: _, h => by cases h
  | _ :: _, [], h => by cases h
  | x :: a, y :: b, h => by
    have hcut : hexDigits x ++ hex a = hexDigits y ++ hex b := h
    obtain ⟨hfirst, hrest⟩ := List.append_inj hcut rfl
    rw [hexDigits_injective hfirst, hex_injective hrest]

theorem mem_hex {bytes : List UInt8} {c : Char} (h : c ∈ hex bytes) :
    ∃ d : Fin 16, c = hexDigit d := by
  obtain ⟨b, -, hc⟩ := List.mem_flatMap.mp h
  rcases List.mem_cons.mp hc with rfl | hc
  · exact ⟨_, rfl⟩
  · exact ⟨_, List.mem_singleton.mp hc⟩

/-! ## Cutting at a separator -/

variable {α : Type} [BEq α] [LawfulBEq α]

/-- Cut at the first `n` separators; what follows stays in one piece. -/
def splitMost (sep : α) : Nat → List α → List (List α)
  | 0, l => [l]
  | n + 1, l =>
    match l.dropWhile (· != sep) with
    | [] => [l]
    | _ :: rest => l.takeWhile (· != sep) :: splitMost sep n rest

theorem splitMost_field {sep : α} {n : Nat} {field rest : List α} (h : sep ∉ field) :
    splitMost sep (n + 1) (field ++ sep :: rest) = field :: splitMost sep n rest := by
  have hfield : ∀ x ∈ field, (x != sep) = true := fun x hx => bne_iff_ne.mpr fun heq => h (heq ▸ hx)
  have hdrop : (field ++ sep :: rest).dropWhile (· != sep) = sep :: rest := by
    rw [List.dropWhile_append_of_pos hfield, List.dropWhile_cons_of_neg (by simp)]
  have htake : (field ++ sep :: rest).takeWhile (· != sep) = field := by
    rw [List.takeWhile_append_of_pos hfield, List.takeWhile_cons_of_neg (by simp), List.append_nil]
  rw [splitMost, hdrop, htake]

end ContentOrchestrator.Lib
