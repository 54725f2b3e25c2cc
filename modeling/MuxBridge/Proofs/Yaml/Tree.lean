/-
# Trees of words

The documents that need no more than words: a tree has words as leaves and mappings from words as
inner nodes. It has two texts, one in lines, where a mapping is indented, and one in braces, where
the keys are quoted. The modules behind this one are about their having the same meaning.

* `Tree.lines`: the members of a mapping, one under the other;
* `Tree.flow`: a tree in braces;
* `Tree.Tidy`: the trees that both texts are able to tell;
* `Tree.isAllowed_of_mem_flow`: the text in braces may be read.
-/
import MuxBridge.Proofs.Yaml.Words

namespace MuxBridge.Yaml

/-- A document of words. A mapping stands some columns to the right of the one around it. -/
inductive Tree where
  | leaf (word : String)
  | node (step : Nat) (members : List (String × Tree))

/-- A word that may be a key where keys may have so many letters. -/
structure IsKey (longest : Nat) (s : String) : Prop extends IsWord s where
  length_le : s.toList.length ≤ longest

/-- Whether a text is a key is found out letter by letter. -/
theorem IsKey.of_all {longest : Nat} {s : String}
    (h : s.toList ≠ [] ∧ s.toList.all isLetter = true ∧ s.toList.length ≤ longest) :
    IsKey longest s :=
  { ne_nil := h.1, letters := List.all_eq_true.mp h.2.1, length_le := h.2.2 }

namespace Tree

/-! ## Texts -/

mutual

/-- The text of a tree behind the colon of a key that stands in a column. -/
def block (column : Nat) : Tree → List Char
  | .leaf w => ' ' :: (w.toList ++ ['\n'])
  | .node step ms => '\n' :: lines (column + step) ms

/-- The lines of members that stand in a column. -/
def lines (column : Nat) : List (String × Tree) → List Char
  | [] => []
  | (k, t) :: ms =>
    List.replicate column ' ' ++ (k.toList ++ ':' :: (t.block column ++ lines column ms))

end

mutual

/-- The text of a tree in braces. -/
def flow : Tree → List Char
  | .leaf w => w.toList
  | .node _ ms => '\x7b' :: (flowMembers ms ++ ['\x7d'])

/-- The members of a mapping, commas between them. -/
def flowMembers : List (String × Tree) → List Char
  | [] => []
  | [(k, t)] => '"' :: (k.toList ++ '"' :: ':' :: t.flow)
  | (k, t) :: m :: ms =>
    '"' :: (k.toList ++ '"' :: ':' :: (t.flow ++ ',' :: flowMembers (m :: ms)))

end

/-! ## Tidy trees -/

/-- A tree whose words are words, whose keys are short, and in which no mapping is empty or stands
where the one around it stands. -/
inductive Tidy (longest : Nat) : Tree → Prop
  | leaf {w : String} (h : IsWord w) : Tidy longest (.leaf w)
  | node {step : Nat} {ms : List (String × Tree)} (hstep : 0 < step) (hne : ms ≠ [])
      (hkeys : ∀ m ∈ ms, IsKey longest m.1) (h : ∀ m ∈ ms, Tidy longest m.2) :
      Tidy longest (.node step ms)

/-! ## Characters of braces -/

variable {longest : Nat}

theorem isAllowed_of_mem_flowMembers {ms : List (String × Tree)}
    (hkeys : ∀ m ∈ ms, IsKey longest m.1)
    (hflows : ∀ m ∈ ms, ∀ c ∈ m.2.flow, isAllowed c = true) :
    ∀ c ∈ flowMembers ms, isAllowed c = true := by
  induction ms with
  | nil => simp [flowMembers]
  | cons m ms ih =>
    obtain ⟨k, t⟩ := m
    rw [List.forall_mem_cons] at hkeys hflows
    have hkey : ∀ c ∈ k.toList, isAllowed c = true :=
      fun c hc => isAllowed_of_isLetter (hkeys.1.letters c hc)
    intro c hc
    cases ms with
    | nil =>
      simp only [flowMembers, List.mem_append, List.mem_cons] at hc
      rcases hc with rfl | hc | rfl | rfl | hc
      · decide
      · exact hkey c hc
      · decide
      · decide
      · exact hflows.1 c hc
    | cons m' ms =>
      simp only [flowMembers, List.mem_append, List.mem_cons] at hc
      rcases hc with rfl | hc | rfl | rfl | hc | rfl | hc
      · decide
      · exact hkey c hc
      · decide
      · decide
      · exact hflows.1 c hc
      · decide
      · exact ih hkeys.2 hflows.2 c hc

/-- A tidy tree in braces may be read. -/
theorem isAllowed_of_mem_flow {t : Tree} (ht : t.Tidy longest) :
    ∀ c ∈ t.flow, isAllowed c = true := by
  induction ht with
  | leaf hw => exact fun c hc => isAllowed_of_isLetter (hw.letters c hc)
  | node _ _ hkeys _ ih =>
    intro c hc
    simp only [flow, List.mem_append, List.mem_cons, List.not_mem_nil, or_false] at hc
    rcases hc with rfl | hc | rfl
    · decide
    · exact isAllowed_of_mem_flowMembers hkeys ih c hc
    · decide

end Tree

end MuxBridge.Yaml
