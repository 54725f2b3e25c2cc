/-
# Written strings

A string is written between quotes with its quotes, backslashes and controls escaped, and read piece
by piece: a piece is a character, or a UTF-16 unit from a hexadecimal escape. Every character is
written so that one piece spells it, whatever comes next.

* `pieces_escape`: the escape of a character is read as one piece that spells it;
* `readString_flatMap_escape`: a written string is read back.
-/
import Mathlib.Data.List.Forall2
import MuxBridge.Json.Reading

namespace MuxBridge

namespace Draft

/-! ## Characters -/

/-- A piece that stands for a character by itself: the character, or the unit of a control. -/
def Piece.Spells (p : Piece) (c : Char) : Prop :=
  p = .char c ∨ p = .unit c.toNat ∧ c.toNat < 0x20

/-- A hexadecimal digit is read as what it was written for. -/
theorem hexValue?_hexDigit : ∀ k < 16, hexValue? (Json.hexDigit k) = some k := by
  decide

/-- An escape of one letter is the piece of its character. -/
theorem pieces_of_shortEscape {c x : Char} (cs : List Char) (hx : shortEscape? c = some x) :
    pieces ('\\' :: c :: cs) = (.char x :: (pieces cs).1, (pieces cs).2) := by
  have hu : c ≠ 'u' := by
    rintro rfl
    cases hx
  rw [pieces]
  · simp only [hx]
  · simp_all
  · simp_all

/-- A character that needs no escape is a piece by itself. -/
theorem pieces_plain {c : Char} (cs : List Char) (hquote : c ≠ '"') (hslash : c ≠ '\\')
    (hc : 0x20 ≤ c.toNat) : pieces (c :: cs) = (.char c :: (pieces cs).1, (pieces cs).2) := by
  rw [pieces]
  · simp only [Nat.not_lt.mpr hc, if_false]
  all_goals simp_all

/-- A control is written as the unit of four digits that it is. -/
theorem pieces_control {n : Nat} (cs : List Char) (hn : n < 0x20) :
    pieces ('\\' :: 'u' :: '0' :: '0' :: Json.hexDigit (n / 16) :: Json.hexDigit (n % 16) :: cs)
      = (.unit n :: (pieces cs).1, (pieces cs).2) := by
  have hhigh : hexValue? (Json.hexDigit (n / 16)) = some (n / 16) :=
    hexValue?_hexDigit _ (by omega)
  have hlow : hexValue? (Json.hexDigit (n % 16)) = some (n % 16) :=
    hexValue?_hexDigit _ (by omega)
  have hzero : hexValue? '0' = some 0 := by decide
  have hunit : hexUnit? '0' '0' (Json.hexDigit (n / 16)) (Json.hexDigit (n % 16)) = some n := by
    simp only [hexUnit?, hhigh, hlow, hzero]
    show some _ = _
    congr 1
    omega
  rw [pieces]
  simp only [hunit]

/-- A character has a short escape, or is a control with a hexadecimal one, or stands for itself. -/
theorem escape_cases (c : Char) :
    (∃ e, Json.escape c = ['\\', e] ∧ shortEscape? e = some c) ∨
    (c.toNat < 0x20 ∧ Json.escape c = ['\\', 'u', '0', '0', Json.hexDigit (c.toNat / 16),
      Json.hexDigit (c.toNat % 16)]) ∨
    (Json.escape c = [c] ∧ c ≠ '"' ∧ c ≠ '\\' ∧ 0x20 ≤ c.toNat) := by
  have hofNat : ∀ n, c.toNat = n → some (Char.ofNat n) = some c := by
    rintro n rfl
    rw [Char.ofNat_toNat]
  unfold Json.escape
  split_ifs with hquote hslash hn hr ht hb hf hlow
  · exact .inl ⟨'"', rfl, congrArg some hquote.symm⟩
  · exact .inl ⟨'\\', rfl, congrArg some hslash.symm⟩
  · exact .inl ⟨'n', rfl, congrArg some hn.symm⟩
  · exact .inl ⟨'r', rfl, congrArg some hr.symm⟩
  · exact .inl ⟨'t', rfl, congrArg some ht.symm⟩
  · exact .inl ⟨'b', rfl, hofNat _ hb⟩
  · exact .inl ⟨'f', rfl, hofNat _ hf⟩
  · exact .inr (.inl ⟨hlow, rfl⟩)
  · exact .inr (.inr ⟨rfl, hquote, hslash, Nat.not_lt.mp hlow⟩)

/-- An escaped character is read as one piece that spells it. -/
theorem pieces_escape (c : Char) (cs : List Char) :
    ∃ p : Piece, p.Spells c ∧
      pieces (Json.escape c ++ cs) = (p :: (pieces cs).1, (pieces cs).2) := by
  rcases escape_cases c with ⟨e, he, hc⟩ | ⟨hlow, he⟩ | ⟨he, hquote, hslash, hhigh⟩
  · exact ⟨.char c, .inl rfl, by rw [he]; exact pieces_of_shortEscape cs hc⟩
  · exact ⟨.unit c.toNat, .inr ⟨rfl, hlow⟩, by rw [he]; exact pieces_control cs hlow⟩
  · exact ⟨.char c, .inl rfl, by rw [he]; exact pieces_plain cs hquote hslash hhigh⟩

/-! ## Strings -/

/-- The text of a string is read as pieces that spell it. -/
theorem pieces_writeString (cs rest : List Char) :
    ∃ ps, List.Forall₂ Piece.Spells ps cs ∧
      pieces (cs.flatMap Json.escape ++ '"' :: rest) = (ps, .ok rest) := by
  induction cs with
  | nil => exact ⟨[], .nil, by simp [pieces]⟩
  | cons c cs ih =>
    obtain ⟨ps, hps, hrest⟩ := ih
    obtain ⟨p, hp, hpieces⟩ := pieces_escape c (cs.flatMap Json.escape ++ '"' :: rest)
    refine ⟨p :: ps, .cons hp hps, ?_⟩
    rw [List.flatMap_cons, List.append_assoc, hpieces, hrest]

/-- A unit below the surrogates stands for its character whatever comes next. -/
theorem assemble_unit {n : Nat} (hn : n < 0xd800) (ps : List Piece) :
    assemble (.unit n :: ps) = (assemble ps).map (Char.ofNat n :: ·) := by
  have hhigh : isHighSurrogate n = false := by
    simp only [isHighSurrogate, Bool.and_eq_false_imp, decide_eq_true_eq]
    omega
  have hlow : isLowSurrogate n = false := by
    simp only [isLowSurrogate, Bool.and_eq_false_imp, decide_eq_true_eq]
    omega
  cases ps with
  | nil => simp [assemble, hhigh, hlow]
  | cons p ps => cases p <;> simp [assemble, hhigh, hlow]

/-- Pieces that spell characters are put together to them. -/
theorem assemble_of_spells {ps : List Piece} {cs : List Char}
    (h : List.Forall₂ Piece.Spells ps cs) : assemble ps = some cs := by
  induction h with
  | nil => rfl
  | cons hp _ ih =>
    rcases hp with rfl | ⟨rfl, hlow⟩
    · simp [assemble, ih]
    · rw [assemble_unit (by omega), ih, Char.ofNat_toNat]
      rfl

/-- **A written string is read back**: after the opening quote comes the string, and what stands
behind the closing quote is left. -/
theorem readString_flatMap_escape (s : String) (rest : List Char) :
    readString (s.toList.flatMap Json.escape ++ '"' :: rest) = (.string s, some rest) := by
  obtain ⟨ps, hps, hpieces⟩ := pieces_writeString s.toList rest
  simp only [readString, hpieces, assemble_of_spells hps, String.ofList_toList]

end Draft

end MuxBridge
