/-
# Written values

The text of a JSON value is read as that value, whatever follows the text. This holds of all values
that messages are made of: their numbers are naturals of 64 bits, and there are no doubles among
them. Messages are not nested deeply either, which matters to readers that set members aside, so
`Json.Simple` bounds the levels as well.

* `Draft.readNumber_toDigits`: a written natural number is read back;
* `Draft.readsBack_of_simple`: so is every simple value, by two steps for every character at most;
* `Draft.ofText_text`: nothing is left of the text of a simple value.
-/
import Mathlib.Data.List.Basic
import Mathlib.Data.List.TakeWhile
import MuxBridge.Proofs.Coding.Strings

namespace MuxBridge

/-! ## Numbers -/

namespace Numeral

/-- A text that does not go on with a number that ends in front of it. -/
def EndsAt (rest : List Char) : Prop :=
  ∀ c ∈ rest.head?, c.isDigit = false ∧ c ≠ '.' ∧ c ≠ 'e' ∧ c ≠ 'E'

variable {n : Nat} {rest : List Char}

theorem isDigit_of_mem_toDigits {c : Char} (hc : c ∈ Nat.toDigits 10 n) : c.isDigit = true :=
  Nat.isDigit_of_mem_toDigits (by decide) (by decide) hc

/-- A positive number does not begin with a zero. -/
theorem head?_toDigits_ne_zero (hn : 0 < n) : (Nat.toDigits 10 n).head? ≠ some '0' := by
  induction n using Nat.strong_induction_on with
  | h n ih =>
    by_cases hsmall : n < 10
    · have hdigit : ∀ k < 10, 0 < k → Nat.digitChar k ≠ '0' := by decide
      rw [Nat.toDigits_of_lt_base hsmall]
      exact fun h => hdigit n hsmall hn (Option.some.inj h)
    · have hquotient : (Nat.toDigits 10 (n / 10)).head? ≠ some '0' :=
        ih (n / 10) (by omega) (by omega)
      rw [Nat.toDigits_of_base_le (by decide) (by omega),
        List.head?_append_of_ne_nil _ Nat.toDigits_ne_nil]
      exact hquotient

/-- A zero in front stands alone. -/
theorem toDigits_ne_zero_cons (n : Nat) (c : Char) (cs : List Char) :
    Nat.toDigits 10 n ≠ '0' :: c :: cs := by
  intro h
  rcases Nat.eq_zero_or_pos n with rfl | hn
  · rw [Nat.toDigits_zero] at h
    cases h
  · exact head?_toDigits_ne_zero hn (by rw [h]; rfl)

/-- Digits are cut off up to where the number ends. -/
theorem digits_toDigits (n : Nat) (hrest : EndsAt rest) :
    digits (Nat.toDigits 10 n ++ rest) = (Nat.toDigits 10 n, rest) := by
  have hall : ∀ c ∈ Nat.toDigits 10 n, c.isDigit = true := fun _ => isDigit_of_mem_toDigits
  rw [digits, List.takeWhile_append_of_pos hall, List.dropWhile_append_of_pos hall]
  cases rest with
  | nil => simp
  | cons c rest =>
    have hc : c.isDigit = false := (hrest c rfl).1
    rw [List.takeWhile_cons_of_neg (by simp [hc]), List.dropWhile_cons_of_neg (by simp [hc]),
      List.append_nil]

/-- Where a number ends it has neither point nor exponent. -/
theorem readFraction_of_endsAt (negative : Bool) (whole : List Char) (hrest : EndsAt rest) :
    readFraction negative whole rest = .numeral ⟨negative, whole, none, none⟩ rest := by
  cases rest with
  | nil => rfl
  | cons c rest =>
    obtain ⟨-, hpoint, he, hE⟩ := hrest c rfl
    rw [readFraction]
    · unfold readExponent
      exact if_neg (by simp [he, hE])
    · intro r hr
      exact absurd (List.cons.inj hr).1 hpoint

/-- The digits of a number are cut off as a plain numeral. -/
theorem read_toDigits (n : Nat) (hrest : EndsAt rest) :
    read (Nat.toDigits 10 n ++ rest) = .numeral ⟨false, Nat.toDigits 10 n, none, none⟩ rest := by
  have hnil : Nat.toDigits 10 n ≠ [] := Nat.toDigits_ne_nil
  have hminus : ∀ r, Nat.toDigits 10 n ++ rest ≠ '-' :: r := by
    intro r h
    obtain ⟨ds, hds⟩ : ∃ ds, Nat.toDigits 10 n = '-' :: ds := by
      cases hd : Nat.toDigits 10 n with
      | nil => exact absurd hd hnil
      | cons d ds =>
        rw [hd] at h
        exact ⟨ds, by rw [(List.cons.inj h).1]⟩
    exact absurd (isDigit_of_mem_toDigits (n := n) (c := '-') (by simp [hds])) (by decide)
  have hwhole : readWhole false (Nat.toDigits 10 n ++ rest)
      = .numeral ⟨false, Nat.toDigits 10 n, none, none⟩ rest := by
    unfold readWhole
    rw [digits_toDigits n hrest]
    split
    · next h _ => exact absurd (congrArg Prod.fst h) hnil
    · next h _ => exact absurd (congrArg Prod.fst h) hnil
    · next h => exact absurd (congrArg Prod.fst h) (toDigits_ne_zero_cons n _ _)
    · next h _ =>
      obtain ⟨rfl, rfl⟩ := Prod.mk.inj h
      exact readFraction_of_endsAt false _ hrest
  rw [read]
  · exact hwhole
  · exact hminus

/-- Digits that stay within 64 bits are all taken. -/
theorem accumulate_eq (n : Nat) (cs : List Char) (h : Nat.ofDigitChars 10 cs n ≤ maxWord) :
    accumulate n cs = (Nat.ofDigitChars 10 cs n, []) := by
  induction cs generalizing n with
  | nil => rfl
  | cons c cs ih =>
    rw [Nat.ofDigitChars_cons] at h ⊢
    have hstep : n * 10 + digitValue c = 10 * n + (c.toNat - '0'.toNat) := by
      rw [digitValue, Nat.mul_comm]
    have hle : 10 * n + (c.toNat - '0'.toNat) ≤ maxWord := by
      refine le_trans ?_ h
      rw [Nat.ofDigitChars_eq_ofDigitChars_zero]
      exact (Nat.le_mul_of_pos_left _ (Nat.pow_pos (by decide))).trans (Nat.le_add_right _ _)
    rw [accumulate, hstep, if_neg (by omega)]
    exact ih _ h

/-- The digits of a natural number of 64 bits stand for that number. -/
theorem number?_toDigits (hn : n ≤ maxWord) :
    number? ⟨false, Nat.toDigits 10 n, none, none⟩ = some (.int n) := by
  have hvalue : accumulate 0 (Nat.toDigits 10 n) = (n, []) := by
    rw [accumulate_eq, Nat.ofDigitChars_ten_toDigits]
    rw [Nat.ofDigitChars_ten_toDigits]
    exact hn
  simp [number?, hvalue, isPlain]

end Numeral

/-- A written natural number is read back. -/
theorem Draft.readNumber_toDigits {n : Nat} {rest : List Char} (hn : n ≤ Numeral.maxWord)
    (hrest : Numeral.EndsAt rest) :
    readNumber (Nat.toDigits 10 n ++ rest) = (.number (.int n), some rest) := by
  rw [readNumber, Numeral.read_toDigits n hrest]
  simp only [Numeral.number?_toDigits hn]

/-! ## Simple values -/

/-- A value of so many levels at most, without doubles, whose numbers are naturals of 64 bits. -/
inductive Json.Simple : Nat → Json → Prop
  | null (n : Nat) : Simple n .null
  | bool (n : Nat) (b : Bool) : Simple n (.bool b)
  | nat (n : Nat) {m : Nat} (hm : m ≤ Numeral.maxWord) : Simple n (.nat m)
  | string (n : Nat) (s : String) : Simple n (.string s)
  | array {n : Nat} {items : List Json} (h : ∀ j ∈ items, Simple n j) :
      Simple (n + 1) (.array items)
  | object {n : Nat} {members : List (String × Json)} (h : ∀ m ∈ members, Simple n m.2) :
    Simple (n + 1) (.object members)

namespace Draft

open Json

variable {n : Nat} {j : Json} {items : List Json} {members : List (String × Json)}

/-! ## How a text begins -/

/-- A character at which a text neither has a blank nor closes an array. -/
def Begins (c : Char) : Prop := isBlank c = false ∧ c ≠ ']'

theorem ne_of_isDigit {c d : Char} (hc : c.isDigit = true) (hd : d.isDigit = false) : c ≠ d := by
  rintro rfl
  rw [hd] at hc
  cases hc

theorem begins_of_isDigit {c : Char} (hc : c.isDigit = true) : Begins c := by
  refine ⟨?_, ne_of_isDigit hc (by decide)⟩
  simp [isBlank, ne_of_isDigit hc (show ' '.isDigit = false by decide),
    ne_of_isDigit hc (show '\t'.isDigit = false by decide),
    ne_of_isDigit hc (show '\n'.isDigit = false by decide),
    ne_of_isDigit hc (show '\r'.isDigit = false by decide)]

theorem write_nat (m : Nat) : write (.nat m) = Nat.toDigits 10 m := by
  rw [Json.nat, write, writeNumber]
  rfl

theorem exists_toDigits_eq_cons (m : Nat) :
    ∃ d ds, Nat.toDigits 10 m = d :: ds ∧ d.isDigit = true := by
  obtain ⟨d, ds, hd⟩ := List.exists_cons_of_ne_nil (Nat.toDigits_ne_nil (n := m) (b := 10))
  exact ⟨d, ds, hd, Numeral.isDigit_of_mem_toDigits (n := m) (by simp [hd])⟩

/-- The text of a value starts neither with a blank nor with a closing bracket. -/
theorem exists_write_eq_cons (hj : j.Simple n) : ∃ c cs, write j = c :: cs ∧ Begins c := by
  cases hj with
  | null => exact ⟨'n', _, rfl, by decide, by decide⟩
  | bool _ b => cases b <;> exact ⟨_, _, rfl, by decide, by decide⟩
  | @nat _ m hm =>
    obtain ⟨d, ds, hd, hdigit⟩ := exists_toDigits_eq_cons m
    exact ⟨d, ds, by rw [write_nat, hd], begins_of_isDigit hdigit⟩
  | string => exact ⟨'"', _, rfl, by decide, by decide⟩
  | array => exact ⟨'[', _, rfl, by decide, by decide⟩
  | object => exact ⟨'\x7b', _, rfl, by decide, by decide⟩

theorem exists_writeItems_eq_cons (h : ∀ j ∈ items, j.Simple n) (hne : items ≠ []) :
    ∃ c cs, writeItems items = c :: cs ∧ Begins c := by
  obtain ⟨j, js, rfl⟩ := List.exists_cons_of_ne_nil hne
  obtain ⟨c, cs, hc, hbegins⟩ := exists_write_eq_cons (h j (by simp))
  cases js with
  | nil => exact ⟨c, cs, by rw [writeItems, hc], hbegins⟩
  | cons k js => exact ⟨c, cs ++ ',' :: writeItems (k :: js), by simp [writeItems, hc], hbegins⟩

theorem exists_writeMembers_eq_cons (hne : members ≠ []) :
    ∃ cs, writeMembers members = '"' :: cs := by
  obtain ⟨⟨name, j⟩, ms, rfl⟩ := List.exists_cons_of_ne_nil hne
  cases ms with
  | nil => exact ⟨_, by rw [writeMembers, writeString]; rfl⟩
  | cons k ms => exact ⟨_, by rw [writeMembers, writeString]; rfl⟩

theorem skipBlanks_cons {c : Char} (cs : List Char) (hc : isBlank c = false) :
    skipBlanks (c :: cs) = c :: cs :=
  List.dropWhile_cons_of_neg (by simp [hc])

theorem endsAt_cons {c : Char} (cs : List Char)
    (hc : c.isDigit = false ∧ c ≠ '.' ∧ c ≠ 'e' ∧ c ≠ 'E') : Numeral.EndsAt (c :: cs) := by
  intro d hd
  rw [← Option.some.inj hd]
  exact hc

/-! ## Items and members -/

/-- A value is read back from its text, whatever follows the text. Reading takes at most two steps
for every character. -/
def ReadsBack (j : Json) : Prop :=
  ∀ fuel rest, 2 * (write j).length ≤ fuel → Numeral.EndsAt rest →
    readValue fuel (write j ++ rest) = (ofJson j, some rest)

/-- The items of an array are read back up to its closing bracket. -/
theorem readItems_writeItems (h : ∀ j ∈ items, ReadsBack j) (hne : items ≠ [])
    (rest : List Char) :
    ∀ fuel, 2 * (writeItems items).length + 1 ≤ fuel →
      readItems fuel (writeItems items ++ ']' :: rest) = (ofItems items, none, some rest) := by
  induction items with
  | nil => exact absurd rfl hne
  | cons j js ih =>
    intro fuel hfuel
    obtain ⟨fuel, rfl⟩ := Nat.exists_eq_add_of_le' (show 1 ≤ fuel by omega)
    cases js with
    | nil =>
      simp only [writeItems] at hfuel ⊢
      have hj := h j (by simp) fuel (']' :: rest) (by omega) (endsAt_cons rest (by decide))
      simp only [readItems, hj, skipBlanks_cons rest (show isBlank ']' = false by decide), ofItems,
        if_true]
    | cons k js =>
      simp only [writeItems, List.length_append, List.length_cons, List.append_assoc,
        List.cons_append] at hfuel ⊢
      have hj := h j (by simp) fuel (',' :: (writeItems (k :: js) ++ ']' :: rest)) (by omega)
        (endsAt_cons _ (by decide))
      have hjs := ih (fun i hi => h i (List.mem_cons_of_mem j hi)) (by simp) fuel (by omega)
      simp only [readItems, hj, skipBlanks_cons _ (show isBlank ',' = false by decide), hjs,
        ofItems, if_true, show ¬ ((',' : Char) = ']') by decide, if_false]

/-- The members of an object are read back up to its closing brace. -/
theorem readMembers_writeMembers (h : ∀ m ∈ members, ReadsBack m.2) (hne : members ≠ [])
    (rest : List Char) :
    ∀ fuel, 2 * (writeMembers members).length + 1 ≤ fuel →
      readMembers fuel (writeMembers members ++ '\x7d' :: rest)
        = (ofMembers members, none, some rest) := by
  induction members with
  | nil => exact absurd rfl hne
  | cons m ms ih =>
    obtain ⟨name, j⟩ := m
    intro fuel hfuel
    obtain ⟨fuel, rfl⟩ := Nat.exists_eq_add_of_le' (show 1 ≤ fuel by omega)
    cases ms with
    | nil =>
      simp only [writeMembers, writeString, List.length_append, List.length_cons,
        List.append_assoc, List.cons_append, List.nil_append] at hfuel ⊢
      have hj := h (name, j) (by simp) fuel ('\x7d' :: rest) (by simp at hfuel ⊢; omega)
        (endsAt_cons rest (by decide))
      simp only [readMembers, skipBlanks_cons _ (show isBlank '"' = false by decide), if_true,
        readString_flatMap_escape, skipBlanks_cons _ (show isBlank ':' = false by decide), hj,
        skipBlanks_cons rest (show isBlank '\x7d' = false by decide), ofMembers]
    | cons k ms =>
      simp only [writeMembers, writeString, List.length_append, List.length_cons,
        List.append_assoc, List.cons_append, List.nil_append] at hfuel ⊢
      have hj := h (name, j) (by simp) fuel (',' :: (writeMembers (k :: ms) ++ '\x7d' :: rest))
        (by simp at hfuel ⊢; omega) (endsAt_cons _ (by decide))
      have hms := ih (fun i hi => h i (List.mem_cons_of_mem _ hi)) (by simp) fuel (by omega)
      simp only [readMembers, skipBlanks_cons _ (show isBlank '"' = false by decide), if_true,
        readString_flatMap_escape, skipBlanks_cons _ (show isBlank ':' = false by decide), hj,
        skipBlanks_cons _ (show isBlank ',' = false by decide), hms, ofMembers,
        show ¬ ((',' : Char) = '\x7d') by decide, if_false]

/-! ## Values -/

/-- What starts with a digit is read as a number. -/
theorem readValue_of_isDigit {c : Char} (hc : c.isDigit = true) (fuel : Nat) (cs : List Char) :
    readValue (fuel + 1) (c :: cs) = readNumber (c :: cs) := by
  have hne : c ≠ '"' ∧ c ≠ 'n' ∧ c ≠ 't' ∧ c ≠ 'f' := by
    refine ⟨?_, ?_, ?_, ?_⟩ <;> exact ne_of_isDigit hc (by decide)
  simp only [readValue, skipBlanks_cons cs (begins_of_isDigit hc).1, hne, hc, or_true, if_true,
    if_false]

/-- The text of a value is not empty, so reading it takes a first step. -/
theorem readsBack_of_succ (hj : j.Simple n)
    (hsucc : ∀ fuel rest, 2 * (write j).length ≤ fuel + 1 → Numeral.EndsAt rest →
      readValue (fuel + 1) (write j ++ rest) = (ofJson j, some rest)) : ReadsBack j := by
  intro fuel rest hfuel hrest
  obtain ⟨c, cs, hcs, -⟩ := exists_write_eq_cons hj
  have hpos : 1 ≤ fuel := by
    rw [hcs, List.length_cons] at hfuel
    omega
  obtain ⟨fuel, rfl⟩ := Nat.exists_eq_add_of_le' hpos
  exact hsucc fuel rest hfuel hrest

/-- An array is read back if its items are. -/
theorem readsBack_array (h : ∀ j ∈ items, Simple n j) (hitems : ∀ j ∈ items, ReadsBack j) :
    ReadsBack (.array items) := by
  refine readsBack_of_succ (.array h) fun fuel rest hfuel _ => ?_
  simp only [write, List.cons_append, List.append_assoc, List.length_cons, List.length_append,
    List.length_nil, List.nil_append] at hfuel ⊢
  by_cases hne : items = []
  · subst hne
    simp [writeItems, readValue, skipBlanks_cons _ (show isBlank '[' = false by decide),
      skipBlanks_cons _ (show isBlank ']' = false by decide), ofJson, ofItems]
  · have hread := readItems_writeItems hitems hne rest fuel (by omega)
    obtain ⟨c, cs, hcs, hblank, hclose⟩ := exists_writeItems_eq_cons h hne
    rw [hcs, List.cons_append] at hread ⊢
    simp [readValue, skipBlanks_cons _ (show isBlank '[' = false by decide),
      skipBlanks_cons _ hblank, hclose, hread, ofJson]

/-- An object is read back if the values of its members are. -/
theorem readsBack_object (h : ∀ m ∈ members, Simple n m.2)
    (hmembers : ∀ m ∈ members, ReadsBack m.2) : ReadsBack (.object members) := by
  refine readsBack_of_succ (.object h) fun fuel rest hfuel _ => ?_
  simp only [write, List.cons_append, List.append_assoc, List.length_cons, List.length_append,
    List.length_nil, List.nil_append] at hfuel ⊢
  by_cases hne : members = []
  · subst hne
    simp [writeMembers, readValue, skipBlanks_cons _ (show isBlank '\x7b' = false by decide),
      skipBlanks_cons _ (show isBlank '\x7d' = false by decide), ofJson, ofMembers]
  · have hread := readMembers_writeMembers hmembers hne rest fuel (by omega)
    obtain ⟨cs, hcs⟩ := exists_writeMembers_eq_cons hne
    rw [hcs, List.cons_append] at hread ⊢
    simp [readValue, skipBlanks_cons _ (show isBlank '\x7b' = false by decide),
      skipBlanks_cons _ (show isBlank '"' = false by decide), hread, ofJson]

/-- **A written value is read back**, whatever follows it. -/
theorem readsBack_of_simple (hj : j.Simple n) : ReadsBack j := by
  induction hj with
  | null n =>
    refine readsBack_of_succ (.null n) fun fuel rest _ _ => ?_
    simp [write, readValue, skipBlanks_cons _ (show isBlank 'n' = false by decide), readWord,
      ofJson]
  | bool n b =>
    refine readsBack_of_succ (.bool n b) fun fuel rest _ _ => ?_
    cases b
    · simp [write, readValue, skipBlanks_cons _ (show isBlank 'f' = false by decide), readWord,
        ofJson]
    · simp [write, readValue, skipBlanks_cons _ (show isBlank 't' = false by decide), readWord,
        ofJson]
  | @nat n m hm =>
    refine readsBack_of_succ (.nat n hm) fun fuel rest _ hrest => ?_
    have hread := readNumber_toDigits hm hrest
    obtain ⟨d, ds, hd, hdigit⟩ := exists_toDigits_eq_cons m
    rw [write_nat]
    rw [hd] at hread ⊢
    rw [List.cons_append, readValue_of_isDigit hdigit]
    exact hread
  | string n s =>
    refine readsBack_of_succ (.string n s) fun fuel rest _ _ => ?_
    simp [write, writeString, readValue, skipBlanks_cons _ (show isBlank '"' = false by decide),
      readString_flatMap_escape, ofJson]
  | array h ih => exact readsBack_array h ih
  | object h ih => exact readsBack_object h ih

/-- **The text of a value is read as that value**, and nothing is left of it. -/
theorem ofText_text (hj : j.Simple n) : ofText j.text = (ofJson j, none) := by
  have hread := readsBack_of_simple hj (2 * (write j).length + 2) [] (by omega)
    (fun c hc => by cases hc)
  rw [List.append_nil] at hread
  simp [ofText, text, hread, skipBlanks]

end Draft

end MuxBridge
