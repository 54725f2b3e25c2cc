/-
# Sections that are read

Numbers and sections at the front of a row of nodes. Written digits are read as the number they were
written for, and a known key has its value read into its field, whatever comes behind it.

* `unsigned?_toDigits`: the digits of a number of 64 bits are that number;
* `skipNode_nodes`: a tree is skipped as a whole;
* `Section.readPairs_known`, `Section.readPairs_unknown`: a pair with a known key, and any other;
* `Section.read_node`: a mapping is read as its pairs;
* `Section.read_number`: a section with one number, whatever else is in it.
-/
import MuxBridge.Proofs.Coding.Values
import MuxBridge.Proofs.Yaml.Nodes
import MuxBridge.Yaml.Reading

namespace MuxBridge.Yaml

/-! ## Numbers -/

theorem hexValue?_of_isDigit {c : Char} (h : c.isDigit = true) :
    hexValue? c = some (c.toNat - '0'.toNat) ∧ c.toNat - '0'.toNat < 10 := by
  simp only [Char.isDigit, Bool.and_eq_true, decide_eq_true_eq, UInt32.le_iff_toNat_le,
    ge_iff_le] at h
  change 48 ≤ c.toNat ∧ c.toNat ≤ 57 at h
  have hzero : '0'.toNat = 48 := rfl
  refine ⟨?_, by omega⟩
  have hdigit : '0' ≤ c ∧ c ≤ '9' := by
    simp only [Char.le_def, UInt32.le_iff_toNat_le]
    exact h
  rw [hexValue?, if_pos hdigit]

/-- Digits add up to what they spell. -/
theorem digitsIn?_of_isDigit {cs : List Char} (hne : cs ≠ []) (h : ∀ c ∈ cs, c.isDigit = true) :
    digitsIn? 10 cs = some (Nat.ofDigitChars 10 cs 0) := by
  have hfold : ∀ (cs : List Char), (∀ c ∈ cs, c.isDigit = true) → ∀ n : Nat,
      cs.foldl (fun n c => do
        let d ← hexValue? c
        if d < 10 then return (← n) * 10 + d else none) (some n)
        = some (Nat.ofDigitChars 10 cs n) := by
    intro cs
    induction cs with
    | nil => exact fun _ _ => rfl
    | cons c cs ih =>
      intro hcs n
      rw [List.forall_mem_cons] at hcs
      obtain ⟨hvalue, hlt⟩ := hexValue?_of_isDigit hcs.1
      have hsmall : c.toNat - 48 < 10 := hlt
      rw [List.foldl_cons, Nat.ofDigitChars_cons, ← ih hcs.2]
      simp [hvalue, hsmall, Nat.mul_comm]
  have hempty : cs.isEmpty = false := by simpa using hne
  rw [digitsIn?, hempty]
  exact hfold cs h 0

/-- The decimal digits of a number spell it. -/
theorem magnitude?_toDigits (n : Nat) : magnitude? (Nat.toDigits 10 n) = some n := by
  have hdigits : digitsIn? 10 (Nat.toDigits 10 n) = some n := by
    rw [digitsIn?_of_isDigit Nat.toDigits_ne_nil fun _ => Numeral.isDigit_of_mem_toDigits,
      Nat.ofDigitChars_ten_toDigits]
  have hzero : hasLeadingZero (Nat.toDigits 10 n) = false := by
    unfold hasLeadingZero
    split
    · next h => exact absurd h (Numeral.toDigits_ne_zero_cons n _ _)
    · rfl
  unfold magnitude?
  split
  · next h => exact absurd h (Numeral.toDigits_ne_zero_cons n _ _)
  · next h => exact absurd h (Numeral.toDigits_ne_zero_cons n _ _)
  · next h => exact absurd h (Numeral.toDigits_ne_zero_cons n _ _)
  · rw [hzero, if_neg Bool.false_ne_true, hdigits]

/-- The decimal digits of a number are that number, as long as it has few enough bits. -/
theorem unsigned?_toDigits {bits n : Nat} (hn : n < Nat.pow 2 bits) :
    unsigned? bits (Nat.toDigits 10 n) = some n := by
  have hplus : withoutPlus (Nat.toDigits 10 n) = Nat.toDigits 10 n := by
    unfold withoutPlus
    split
    · next cs h =>
      have hdigit := Numeral.isDigit_of_mem_toDigits (n := n) (c := '+') (by rw [h]; simp)
      exact absurd hdigit (by decide)
    · rfl
  rw [unsigned?, hplus, magnitude?_toDigits]
  exact if_pos (decide_eq_true hn)

/-- A number of 64 bits is read from its digits. -/
theorem readWord64_digits (d : Document) (path : YamlPath) {n : Nat} (hn : n ≤ Numeral.maxWord)
    (style : Style) (ns : List Node) :
    readWord64 d path ((Tree.leaf (decimalDigits n)).nodes style ++ ns) = .ok (n, ns) := by
  have hdigits : unsigned? 64 (decimalDigits n).toList = some n := by
    rw [decimalDigits, String.toList_ofList]
    exact unsigned?_toDigits (Nat.lt_of_le_pred (by decide) hn)
  have hword : word64Of path (some (.scalar none (decimalDigits n) .plain)) = .ok n := by
    simp [word64Of, isIntegerLike, hdigits]
  simp only [Tree.nodes, List.singleton_append, readWord64, hword, bind, Except.bind]
  rfl

/-! ## Skipping -/

namespace Tree

mutual

/-- Inside of a collection, a tree is skipped as a whole. -/
theorem skipNodes_nodes (style : Style) : (t : Tree) → ∀ (depth : Nat) (ns : List Node),
    skipNodes (depth + 1) (t.nodes style ++ ns) = skipNodes (depth + 1) ns
  | .leaf w, depth, ns => by simp [nodes, skipNodes]
  | .node step ms, depth, ns => by
    have hmembers := skipNodes_memberNodes style ms (depth + 1) (.mappingEnd :: ns)
    have hnodes : (node step ms).nodes style ++ ns
        = .mappingStart :: (memberNodes style ms ++ .mappingEnd :: ns) := by simp [nodes]
    rw [hnodes, skipNodes, hmembers, skipNodes, if_neg (by omega), Nat.add_sub_cancel]

/-- So are members. -/
theorem skipNodes_memberNodes (style : Style) : (ms : List (String × Tree)) →
    ∀ (depth : Nat) (ns : List Node),
    skipNodes (depth + 1) (memberNodes style ms ++ ns) = skipNodes (depth + 1) ns
  | [], depth, ns => by rw [memberNodes, List.nil_append]
  | (k, t) :: ms, depth, ns => by
    have hnodes : memberNodes style ((k, t) :: ms) ++ ns
        = .scalar none k style :: (t.nodes style ++ (memberNodes style ms ++ ns)) := by
      simp [memberNodes]
    have hkey : ∀ ns, skipNodes (depth + 1) (.scalar none k style :: ns)
        = skipNodes (depth + 1) ns := fun ns => by simp [skipNodes]
    rw [hnodes, hkey, skipNodes_nodes style t, skipNodes_memberNodes style ms]

end

end Tree

/-- A tree is skipped up to what stands behind it. -/
theorem skipNode_nodes (style : Style) (t : Tree) (ns : List Node) :
    skipNode (t.nodes style ++ ns) = some ns := by
  cases t with
  | leaf w => simp [Tree.nodes, skipNode, skipNodes]
  | node step ms =>
    have hmembers := Tree.skipNodes_memberNodes style ms 0 (.mappingEnd :: ns)
    have hnodes : (Tree.node step ms).nodes style ++ ns
        = .mappingStart :: (Tree.memberNodes style ms ++ .mappingEnd :: ns) := by
      simp [Tree.nodes]
    rw [hnodes, skipNode, skipNodes, hmembers, skipNodes, if_pos (Nat.le_refl 1)]

/-! ## Sections -/

/-- Every member of a mapping has a node of its own. -/
theorem Tree.length_le_memberNodes (style : Style) (ms : List (String × Tree)) :
    ms.length ≤ (memberNodes style ms).length := by
  induction ms with
  | nil => exact Nat.zero_le _
  | cons m ms ih =>
    obtain ⟨k, t⟩ := m
    simp only [memberNodes, List.length_cons, List.length_append]
    omega

namespace Section

variable {σ : Type} {s : Section σ} {d : Document} {path : YamlPath} {style : Style} {k : String}
  {t : Tree} {ms : List (String × Tree)} {ns ns' : List Node} {known known' : σ}

/-- A pair whose key is known is read into its field. -/
theorem readPairs_known {f : Field σ} (hf : s.fields.find? (·.name == k) = some f)
    (hset : f.isSet known = false)
    (hread : f.read d (.key path k) (t.nodes style ++ (Tree.memberNodes style ms ++ ns)) known
      = .ok (known', Tree.memberNodes style ms ++ ns)) (fuel : Nat) :
    s.readPairs d path (fuel + 1) (Tree.memberNodes style ((k, t) :: ms) ++ ns) known
      = s.readPairs d path fuel (Tree.memberNodes style ms ++ ns) known' := by
  have hnodes : Tree.memberNodes style ((k, t) :: ms) ++ ns
      = .scalar none k style :: (t.nodes style ++ (Tree.memberNodes style ms ++ ns)) := by
    simp [Tree.memberNodes]
  simp only [hnodes, readPairs, readKey, readValue, hf, hset, hread, bind, Except.bind,
    Bool.false_eq_true, if_false]

/-- A pair whose key is not known is skipped, whatever its value is. -/
theorem readPairs_unknown (hk : s.fields.find? (·.name == k) = none) (fuel : Nat) :
    s.readPairs d path (fuel + 1) (Tree.memberNodes style ((k, t) :: ms) ++ ns) known
      = s.readPairs d path fuel (Tree.memberNodes style ms ++ ns) known := by
  have hnodes : Tree.memberNodes style ((k, t) :: ms) ++ ns
      = .scalar none k style :: (t.nodes style ++ (Tree.memberNodes style ms ++ ns)) := by
    simp [Tree.memberNodes]
  simp only [hnodes, readPairs, readKey, readValue, hk, skipNode_nodes, bind, Except.bind]

/-- The pairs of a mapping end at its end. -/
theorem readPairs_end (fuel : Nat) :
    s.readPairs d path (fuel + 1) (Tree.memberNodes style [] ++ .mappingEnd :: ns) known
      = .ok (known, ns) := rfl

/-- A mapping is read as its pairs, for which there are steps enough. -/
theorem read_node (step : Nat) (hpairs : ∀ fuel, ms.length < fuel →
      s.readPairs d path fuel (Tree.memberNodes style ms ++ .mappingEnd :: ns) s.start
        = .ok (known, ns)) :
    s.read d path ((Tree.node step ms).nodes style ++ ns) = .ok (known, ns) := by
  have hnodes : (Tree.node step ms).nodes style ++ ns
      = .mappingStart :: (Tree.memberNodes style ms ++ .mappingEnd :: ns) := by simp [Tree.nodes]
  have hlength := Tree.length_le_memberNodes style ms
  rw [hnodes]
  refine hpairs _ ?_
  rw [List.length_append]
  omega

/-! ## Numbers in sections -/

/-- Nothing is found under a key that is none. -/
theorem lookup_of_not_mem_keys (h : k ∉ ms.map Prod.fst) : ms.lookup k = none := by
  rw [List.lookup_eq_none_iff]
  intro m hm
  refine bne_iff_ne.mpr ?_
  rintro rfl
  exact h (List.mem_map_of_mem hm)

/-- The only field of a section is a number. -/
structure HasNumber (s : Section (Option Nat)) (f : Field (Option Nat)) : Prop where
  fields : s.fields = [f]
  start : s.start = none
  isSet : f.isSet = Option.isSome
  read : ∀ d path ns known, f.read d path ns known
    = (readWord64 d path ns).map fun p => (some p.1, p.2)

section Numbers

variable {s : Section (Option Nat)} {f : Field (Option Nat)} (h : s.HasNumber f)

include h

/-- The members of a section give its number, in whatever order they stand and whatever else is
among them. -/
theorem readPairs_number {value known : Option Nat} (hdistinct : (ms.map Prod.fst).Nodup)
    (hword : ∀ n ∈ value, n ≤ Numeral.maxWord)
    (hvalue : ms.lookup f.name = value.map fun n => .leaf (decimalDigits n))
    (hknown : known = none ∨ value = none) : ∀ fuel, ms.length < fuel →
      s.readPairs d path fuel (Tree.memberNodes style ms ++ .mappingEnd :: ns) known
        = .ok (value.or known, ns) := by
  induction ms generalizing value known with
  | nil =>
    intro fuel hfuel
    obtain ⟨fuel, rfl⟩ := Nat.exists_eq_add_of_lt hfuel
    have hnone : value = none := Option.map_eq_none_iff.mp hvalue.symm
    rw [hnone, Option.none_or]
    exact readPairs_end _
  | cons m ms ih =>
    obtain ⟨k, t⟩ := m
    rw [List.map_cons, List.nodup_cons] at hdistinct
    intro fuel hfuel
    obtain ⟨fuel, rfl⟩ := Nat.exists_eq_add_of_le' (m := 1) (Nat.one_le_of_lt hfuel)
    rw [List.length_cons] at hfuel
    by_cases hk : f.name = k
    · -- the number is here, so it is nowhere behind
      subst hk
      rw [List.lookup_cons_self] at hvalue
      obtain ⟨n, rfl, rfl⟩ := Option.map_eq_some_iff.mp hvalue.symm
      have hnone : known = none := hknown.resolve_right (Option.some_ne_none n)
      have hread : f.read d (.key path f.name) ((Tree.leaf (decimalDigits n)).nodes style ++
          (Tree.memberNodes style ms ++ .mappingEnd :: ns)) known
          = .ok (some n, Tree.memberNodes style ms ++ .mappingEnd :: ns) := by
        rw [h.read, readWord64_digits d _ (hword n rfl)]
        rfl
      have hbehind := lookup_of_not_mem_keys hdistinct.1
      have hwords : ∀ n ∈ (none : Option Nat), n ≤ Numeral.maxWord := by simp
      rw [readPairs_known (by simp [h.fields]) (by rw [h.isSet, hnone]; rfl) hread]
      exact ih hdistinct.2 hwords hbehind (.inr rfl) fuel (by omega)
    · have hfind : s.fields.find? (·.name == k) = none := by simp [h.fields, hk]
      have hlookup : ms.lookup f.name = value.map fun n => .leaf (decimalDigits n) := by
        rw [← hvalue, List.lookup_cons, beq_false_of_ne hk]
      rw [readPairs_unknown hfind]
      exact ih hdistinct.2 hword hlookup hknown fuel (by omega)

/-- A section is read as its number, if it is there. -/
theorem read_number {value : Option Nat} (hdistinct : (ms.map Prod.fst).Nodup)
    (hword : ∀ n ∈ value, n ≤ Numeral.maxWord)
    (hvalue : ms.lookup f.name = value.map fun n => .leaf (decimalDigits n)) (d : Document)
    (path : YamlPath) (step : Nat) (style : Style) (ns : List Node) :
    s.read d path ((Tree.node step ms).nodes style ++ ns) = .ok (value, ns) := by
  refine read_node step ?_
  intro fuel hfuel
  rw [h.start, readPairs_number h hdistinct hword hvalue (.inl rfl) fuel hfuel, Option.or_none]

end Numbers

end Section

end MuxBridge.Yaml
