/-
# Words in a YAML text

Words of letters, digits and underscores are the scalars that a YAML text needs no care for: none of
their characters is a mark, a blank or a break, so a plain word ends where its letters end, and a
quoted one says what stands between its quotes.

* `IsWord`: a row of such characters;
* `readPlain_word`: a plain word in front of a mark on the same line;
* `readQuoted_word`: a quoted word.
-/
import Mathlib.Data.List.TakeWhile
import MuxBridge.Yaml.Layout

namespace MuxBridge.Yaml

/-! ## Letters -/

/-- The characters of words: letters, digits and underscores. -/
def isLetter (c : Char) : Bool := c.isAlphanum || c = '_'

section Letters

variable {c : Char} (h : isLetter c = true)

include h

theorem toNat_of_isLetter : 48 ≤ c.toNat ∧ c.toNat ≤ 122 := by
  delta isLetter Char.isAlphanum Char.isAlpha Char.isUpper Char.isLower Char.isDigit at h
  simp only [Bool.or_eq_true, Bool.and_eq_true, decide_eq_true_eq, UInt32.le_iff_toNat_le,
    ge_iff_le] at h
  -- letters and digits as ranges of numbers
  change (((65 ≤ c.toNat ∧ c.toNat ≤ 90) ∨ (97 ≤ c.toNat ∧ c.toNat ≤ 122)) ∨
    (48 ≤ c.toNat ∧ c.toNat ≤ 57)) ∨ c = '_' at h
  rcases h with h | rfl
  · omega
  · decide

theorem ne_of_isLetter {x : Char} (hx : isLetter x = false) : c ≠ x := by
  rintro rfl
  rw [h] at hx
  cases hx

theorem isBlank_of_isLetter : isBlank c = false := by
  simp [isBlank, ne_of_isLetter h (x := ' ') (by decide), ne_of_isLetter h (x := '\t') (by decide)]

theorem isBreak_of_isLetter : isBreak c = false := by
  have hn := toNat_of_isLetter h
  have hn85 : c.toNat ≠ 0x85 := by omega
  have hn2028 : c.toNat ≠ 0x2028 := by omega
  have hn2029 : c.toNat ≠ 0x2029 := by omega
  simp [isBreak, hn85, hn2028, hn2029, ne_of_isLetter h (x := '\n') (by decide),
    ne_of_isLetter h (x := '\r') (by decide)]

theorem isFlowMark_of_isLetter : isFlowMark c = false := by
  simp [isFlowMark, ne_of_isLetter h (x := ',') (by decide),
    ne_of_isLetter h (x := '[') (by decide), ne_of_isLetter h (x := ']') (by decide),
    ne_of_isLetter h (x := '\x7b') (by decide), ne_of_isLetter h (x := '\x7d') (by decide)]

/-- No letter is a mark that no plain scalar starts with. -/
theorem isIndicator_of_isLetter : Layout.isIndicator c = false := by
  have hmarks : ['-', '?', ':', '#', '&', '*', '!', '|', '>', '"', '%', '@', '\x60'].all
      (!isLetter ·) = true := by decide
  have hnot : c ∉ ['-', '?', ':', '#', '&', '*', '!', '|', '>', '"', '%', '@', '\x60'] :=
    fun hc => ne_of_isLetter h ((Bool.not_eq_true' _).mp (List.all_eq_true.mp hmarks c hc)) rfl
  have hquote : c ≠ apostrophe := ne_of_isLetter h (by decide)
  simp only [Layout.isIndicator, isFlowMark_of_isLetter h, hquote, hnot, decide_false,
    Bool.or_false]

theorem isAllowed_of_isLetter : isAllowed c = true := by
  have hn := toNat_of_isLetter h
  have hlo : 0x20 ≤ c.toNat := by omega
  have hhi : c.toNat ≤ 0x7e := by omega
  simp [isAllowed, hlo, hhi]

theorem utf8Size_of_isLetter : c.utf8Size = 1 := by
  have hn := toNat_of_isLetter h
  have hval : c.val ≤ 127 := by
    rw [UInt32.le_iff_toNat_le]
    exact hn.2.trans (by decide)
  simp [Char.utf8Size, hval]

end Letters

/-- The characters that end a gap between tokens. -/
def isSolid (c : Char) : Bool := !isBlank c && !isBreak c && c ≠ '#' && c.toNat ≠ 0xfeff

theorem isSolid_of_isLetter {c : Char} (h : isLetter c = true) : isSolid c = true := by
  have hn := toNat_of_isLetter h
  have hmark : c.toNat ≠ 0xfeff := by omega
  simp [isSolid, isBlank_of_isLetter h, isBreak_of_isLetter h, hmark,
    ne_of_isLetter h (x := '#') (by decide)]

/-- A text that is empty or goes on with a token. -/
def StartsSolid (cs : List Char) : Prop := ∀ c ∈ cs.head?, isSolid c = true

theorem startsSolid_cons {c : Char} (h : isSolid c = true) (cs : List Char) :
    StartsSolid (c :: cs) := by
  rintro x ⟨⟩
  exact h

theorem startsSolid_of_letters {w : List Char} (hw : ∀ c ∈ w, isLetter c = true) (hne : w ≠ [])
    (cs : List Char) : StartsSolid (w ++ cs) := by
  obtain ⟨c, w, rfl⟩ := List.exists_cons_of_ne_nil hne
  exact startsSolid_cons (isSolid_of_isLetter (hw c List.mem_cons_self)) (w ++ cs)

/-! ## Cursors -/

theorem foldl_utf8Size (cs : List Char) :
    ∀ n : Nat, cs.foldl (fun n c => n + c.utf8Size) n = n + byteCount cs := by
  induction cs with
  | nil => exact fun _ => rfl
  | cons c cs ih =>
    intro n
    rw [byteCount, List.foldl_cons, List.foldl_cons, ih, ih, Nat.zero_add, Nat.add_assoc]

theorem byteCount_append (cs ds : List Char) :
    byteCount (cs ++ ds) = byteCount cs + byteCount ds := by
  rw [byteCount, List.foldl_append, foldl_utf8Size, ← byteCount]

/-- A word takes one byte for each letter. -/
theorem byteCount_letters {w : List Char} (hw : ∀ c ∈ w, isLetter c = true) :
    byteCount w = w.length := by
  induction w with
  | nil => rfl
  | cons c w ih =>
    rw [List.forall_mem_cons] at hw
    rw [byteCount, List.foldl_cons, foldl_utf8Size, ih hw.2, utf8Size_of_isLetter hw.1,
      List.length_cons, Nat.add_comm, Nat.zero_add]

namespace Cursor

variable {c : Cursor}

@[simp] theorem advance_zero (c : Cursor) : c.advance 0 = c := by
  simp [advance, byteCount]

theorem advance_advance (c : Cursor) (m n : Nat) :
    (c.advance m).advance n = c.advance (m + n) := by
  simp only [advance, List.drop_drop, Cursor.mk.injEq, true_and]
  refine ⟨?_, Nat.add_assoc _ _ _⟩
  rw [Nat.add_assoc, ← byteCount_append, List.take_add]

@[simp] theorem advance_line (c : Cursor) (n : Nat) : (c.advance n).line = c.line := rfl

@[simp] theorem advance_column (c : Cursor) (n : Nat) : (c.advance n).column = c.column + n := rfl

theorem advance_rest_of_append {w r : List Char} (h : c.rest = w ++ r) :
    (c.advance w.length).rest = r := by
  simp [advance, h]

theorem advance_rest_of_spaces {n : Nat} {r : List Char} (h : c.rest = List.replicate n ' ' ++ r) :
    (c.advance n).rest = r := by
  simp [advance, h]

theorem advance_rest_of_cons {x : Char} {r : List Char} (h : c.rest = x :: r) :
    (c.advance 1).rest = r := by
  simp [advance, h]

theorem advance_index_of_letters {w r : List Char} (hw : ∀ c ∈ w, isLetter c = true)
    (h : c.rest = w ++ r) : (c.advance w.length).index = c.index + w.length := by
  simp [advance, h, byteCount_letters hw]

theorem advance_index_of_quoted {w r : List Char} (hw : ∀ c ∈ w, isLetter c = true)
    (h : c.rest = '"' :: (w ++ '"' :: r)) :
    (c.advance (w.length + 2)).index = c.index + (w.length + 2) := by
  have htake : ('"' :: (w ++ '"' :: r)).take (w.length + 2) = ['"'] ++ w ++ ['"'] := by
    simp [List.take_append, List.take_of_length_le]
  have hquote : byteCount ['"'] = 1 := by decide
  simp only [advance, h, htake, byteCount_append, byteCount_letters hw, hquote]
  omega

theorem newLine_rest_of_cons {x : Char} {r : List Char} (h : c.rest = x :: r) :
    (c.newLine 1).rest = r := by
  simp [newLine, h]

/-- A token starts with no line break. -/
theorem lineBreak?_of_startsSolid (h : StartsSolid c.rest) : c.lineBreak? = none := by
  unfold lineBreak?
  split
  · next hrest =>
    rw [hrest] at h
    exact absurd (h _ rfl) (by decide)
  · next x _ _ hrest =>
    rw [hrest] at h
    have hx : isSolid x = true := h x rfl
    simp only [isSolid, Bool.and_eq_true, Bool.not_eq_true'] at hx
    rw [if_neg (by simp [hx])]
  · rfl

/-- No word is a document marker. -/
theorem atAnyMarker_of_letter {x : Char} {r : List Char} (hx : isLetter x = true)
    (h : c.rest = x :: r) : c.atAnyMarker = false := by
  simp [atAnyMarker, atMarker, h, ne_of_isLetter hx (x := '-') (by decide),
    ne_of_isLetter hx (x := '.') (by decide)]

end Cursor

/-! ## Plain words -/

/-- A word, as a text. -/
structure IsWord (s : String) : Prop where
  ne_nil : s.toList ≠ []
  letters : ∀ c ∈ s.toList, isLetter c = true

section Scalars

variable {w r : List Char} (hw : ∀ c ∈ w, isLetter c = true)

include hw

/-- No plain scalar ends inside a word. -/
theorem plainRun_letters (inFlow : Bool) :
    plainRun inFlow (w ++ r) = (plainRun inFlow r).map (w ++ ·) := by
  induction w with
  | nil => simp
  | cons c w ih =>
    rw [List.forall_mem_cons] at hw
    rw [List.cons_append, plainRun.eq_def]
    simp only [isBlank_of_isLetter hw.1, isBreak_of_isLetter hw.1, isFlowMark_of_isLetter hw.1,
      ne_of_isLetter hw.1 (x := ':') (by decide), Bool.or_false, Bool.and_false, if_false,
      Bool.false_eq_true]
    rw [ih hw.2, Option.map_map]
    rfl

variable (hne : w ≠ []) {c : Cursor} (hc : c.rest = w ++ r)

include hne hc

/-- The parts of a plain scalar may start with a word. -/
theorem startsPart_of_letters :
    (c.atAnyMarker || decide (c.rest.head? = some '#')) = false := by
  obtain ⟨x, w, rfl⟩ := List.exists_cons_of_ne_nil hne
  have hx : isLetter x = true := hw x List.mem_cons_self
  rw [Cursor.atAnyMarker_of_letter hx hc]
  simp [hc, ne_of_isLetter hx (x := '#') (by decide)]

/-- A plain word ends in front of a mark. -/
theorem readPlain_word {inFlow : Bool} (indent : Nat) (hend : plainRun inFlow r = some [])
    (hmark : ∀ x ∈ r.head?, (isBlank x || isBreak x) = false) :
    readPlain inFlow indent c = some ⟨w, false, c.advance w.length⟩ := by
  have hrun : plainRun inFlow c.rest = some w := by
    rw [hc, plainRun_letters hw, hend]
    simp
  rw [readPlain, readPlainParts, startsPart_of_letters hw hne hc, if_neg Bool.false_ne_true, hrun]
  obtain ⟨x, w, rfl⟩ := List.exists_cons_of_ne_nil hne
  simp only [Cursor.advance_rest_of_append hc]
  cases r with
  | nil => rfl
  | cons x r =>
    have hx : (isBlank x || isBreak x) = false := hmark x rfl
    simp [hx, Gap.text, Gap.none]

end Scalars

/-! ## Quoted words -/

/-- Between quotes a word stands for itself. -/
theorem quotedRun_letters {w r text : List Char} {fuel : Nat} {c : Cursor}
    (hw : ∀ c ∈ w, isLetter c = true) (hc : c.rest = w ++ '"' :: r) (hfuel : w.length < fuel) :
    quotedRun false fuel text c = some (text ++ w, false, c.advance w.length) := by
  induction w generalizing fuel text c with
  | nil =>
    obtain ⟨fuel, rfl⟩ := Nat.exists_eq_add_of_lt hfuel
    have hrest : c.rest = '"' :: r := hc
    simp [quotedRun, hrest, isBlank, isBreak]
  | cons x w ih =>
    rw [List.forall_mem_cons] at hw
    obtain ⟨fuel, rfl⟩ := Nat.exists_eq_add_of_lt (Nat.zero_lt_of_lt hfuel)
    have hrest : c.rest = x :: (w ++ '"' :: r) := hc
    rw [List.length_cons] at hfuel
    rw [Nat.zero_add, quotedRun, hrest]
    simp only [isBlank_of_isLetter hw.1, isBreak_of_isLetter hw.1, Bool.or_false, if_false,
      Bool.false_eq_true, ne_of_isLetter hw.1 (x := '"') (by decide),
      ne_of_isLetter hw.1 (x := '\\') (by decide)]
    rw [ih hw.2 (Cursor.advance_rest_of_cons hrest) (by omega), Cursor.advance_advance,
      List.append_assoc, List.singleton_append, List.length_cons, Nat.add_comm]

/-- A quoted word is read up to behind its closing quote. -/
theorem readQuoted_word {w r : List Char} {c : Cursor} (hw : ∀ c ∈ w, isLetter c = true)
    (hc : c.rest = '"' :: (w ++ '"' :: r)) :
    readQuoted false c = some (w, c.advance (w.length + 2)) := by
  have hrest : (c.advance 1).rest = w ++ '"' :: r := Cursor.advance_rest_of_cons hc
  have hmarker : (c.advance 1).atAnyMarker = false := by
    simp [Cursor.atAnyMarker, Cursor.atMarker]
  have hfuel : w.length < (c.advance 1).rest.length + 1 := by
    rw [hrest, List.length_append]
    omega
  have hrun : quotedRun false ((c.advance 1).rest.length + 1) [] (c.advance 1)
      = some ([] ++ w, false, (c.advance 1).advance w.length) :=
    quotedRun_letters hw hrest hfuel
  have hlast : ((c.advance 1).advance w.length).rest = '"' :: r :=
    Cursor.advance_rest_of_append hrest
  rw [readQuoted, readQuotedParts, hmarker, hrun]
  simp only [hlast]
  simp [hrest, Cursor.advance_advance, Nat.add_comm, Nat.add_left_comm]

end MuxBridge.Yaml
