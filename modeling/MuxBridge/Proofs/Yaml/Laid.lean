/-
# Trees in lines, however spaced

The texts in lines that tell a tree. Every mapping has a column of its own to the right of the one
around it, every member starts on a line of its own there, and the text between two tokens is
spacing. A text is told together with what follows it, so a word always ends where its spacing
starts. The canonical lines of a tree are one such text.

* `LaidValue`, `LaidMembers`: a tree behind the colon of its key, and the members of a mapping;
* `Laid`: a whole text;
* `Laid.isAllowed_of_mem`: such a text may be read;
* `Tree.laid_lines`: the canonical lines are laid out.
-/
import MuxBridge.Proofs.Yaml.Spacing
import MuxBridge.Proofs.Yaml.Tree

namespace MuxBridge.Yaml

mutual

/-- The text of a tree behind the colon of a key that stands in a column, up to the text `r`, which
stands in column `n` unless it is empty. -/
inductive LaidValue : Nat → Tree → Nat → List Char → List Char → Prop
  | leaf {column n : Nat} {w : String} {r blanks cs : List Char} (hw : IsWord w)
    (hblanks : ∀ c ∈ blanks, isBlank c = true) (hne : blanks ≠ []) (hline : LineEnd n r cs) :
    LaidValue column (.leaf w) n r (blanks ++ (w.toList ++ cs))
  | node {column step n : Nat} {ms : List (String × Tree)} {r cs ds : List Char} (hstep : 0 < step)
    (hline : LineEnd (column + step) ds cs) (hmembers : LaidMembers (column + step) ms n r ds) :
    LaidValue column (.node step ms) n r cs

/-- The text of members that stand in a column, from the first key on. -/
inductive LaidMembers : Nat → List (String × Tree) → Nat → List Char → List Char → Prop
  | last {column n : Nat} {k : String} {t : Tree} {r cs : List Char} (hk : IsKey 1024 k)
    (hvalue : LaidValue column t n r cs) :
    LaidMembers column [(k, t)] n r (k.toList ++ ':' :: cs)
  | more {column n : Nat} {k : String} {t : Tree} {m : String × Tree} {ms : List (String × Tree)}
    {r cs ds : List Char} (hk : IsKey 1024 k) (hvalue : LaidValue column t column ds cs)
    (hmembers : LaidMembers column (m :: ms) n r ds) :
    LaidMembers column ((k, t) :: m :: ms) n r (k.toList ++ ':' :: cs)

end

/-- A text whose only content is a mapping with the given members. -/
inductive Laid (ms : List (String × Tree)) (text : List Char) : Prop
  | intro {column : Nat} {cs : List Char} (hline : LineStart column cs text)
    (hmembers : LaidMembers column ms 0 [] cs)

/-! ## Starts of texts -/

/-- Members start with a key. -/
theorem LaidMembers.ne_nil {column n : Nat} {ms : List (String × Tree)} {r cs : List Char}
    (h : LaidMembers column ms n r cs) : cs ≠ [] := by
  cases h with
  | last hk _ => exact List.append_ne_nil_of_left_ne_nil hk.ne_nil _
  | more hk _ _ => exact List.append_ne_nil_of_left_ne_nil hk.ne_nil _

/-- What stands behind a colon does not belong to the key in front of it. -/
theorem LaidValue.startsBlank {column n : Nat} {t : Tree} {r cs : List Char}
    (h : LaidValue column t n r cs) : startsBlank cs = true := by
  cases h with
  | leaf _ hblanks hne _ =>
    obtain ⟨x, blanks, rfl⟩ := List.exists_cons_of_ne_nil hne
    simp [Yaml.startsBlank, hblanks x List.mem_cons_self]
  | node _ hline _ => exact hline.startsBlank

/-! ## Characters -/

mutual

theorem LaidValue.isAllowed_of_mem {column n : Nat} {t : Tree} {r cs : List Char}
    (hr : ∀ c ∈ r, isAllowed c = true) :
    LaidValue column t n r cs → ∀ c ∈ cs, isAllowed c = true
  | .leaf hw hblanks _ hline => by
    rw [List.forall_mem_append, List.forall_mem_append]
    exact ⟨fun c hc => isAllowed_of_isBlank (hblanks c hc),
      fun c hc => isAllowed_of_isLetter (hw.letters c hc), hline.isAllowed_of_mem hr⟩
  | .node _ hline hmembers => hline.isAllowed_of_mem (hmembers.isAllowed_of_mem hr)

theorem LaidMembers.isAllowed_of_mem {column n : Nat} {ms : List (String × Tree)}
    {r cs : List Char} (hr : ∀ c ∈ r, isAllowed c = true) :
    LaidMembers column ms n r cs → ∀ c ∈ cs, isAllowed c = true
  | .last hk hvalue => by
    rw [List.forall_mem_append, List.forall_mem_cons]
    exact ⟨fun c hc => isAllowed_of_isLetter (hk.letters c hc), by decide,
      hvalue.isAllowed_of_mem hr⟩
  | .more hk hvalue hmembers => by
    rw [List.forall_mem_append, List.forall_mem_cons]
    exact ⟨fun c hc => isAllowed_of_isLetter (hk.letters c hc), by decide,
      hvalue.isAllowed_of_mem (hmembers.isAllowed_of_mem hr)⟩

end

/-- A text in lines may be read. -/
theorem Laid.isAllowed_of_mem {ms : List (String × Tree)} {text : List Char} (h : Laid ms text) :
    ∀ c ∈ text, isAllowed c = true := by
  obtain ⟨hline, hmembers⟩ := h
  exact hline.isAllowed_of_mem (hmembers.isAllowed_of_mem (by simp))

/-! ## Canonical lines -/

namespace Tree

theorem startsSolid_key {k : String} (hk : IsKey 1024 k) (r : List Char) :
    StartsSolid (k.toList ++ r) :=
  startsSolid_of_letters hk.letters hk.ne_nil r

/-- A line feed and the indentation of the next token end a line. -/
theorem lineEnd_spaces {n : Nat} {r : List Char} (hr : StartsSolid r) :
    LineEnd n r ('\n' :: (List.replicate n ' ' ++ r)) := by
  have hline : LineEnd n r ([] ++ ([] ++ '\n' :: (List.replicate n ' ' ++ r))) :=
    .line (by simp) .none (by simp) (.single (by decide) fun h => absurd h (by decide)) (.token hr)
  exact hline

/-- The text of members starts with the indentation of the first. -/
theorem lines_cons (column : Nat) (k : String) (t : Tree) (ms : List (String × Tree))
    (r : List Char) : lines column ((k, t) :: ms) ++ r = List.replicate column ' ' ++
      (k.toList ++ ':' :: (t.block column ++ (lines column ms ++ r))) := by
  simp [lines]

/-- Members are laid out by their lines if their values are. -/
theorem laidMembers_lines {column n : Nat} {r : List Char} (hr : StartsSolid r) {k : String}
    {t : Tree} {ms : List (String × Tree)} (hkeys : ∀ m ∈ (k, t) :: ms, IsKey 1024 m.1)
    (hvalues : ∀ m ∈ (k, t) :: ms, ∀ n r, StartsSolid r →
      LaidValue column m.2 n r (m.2.block column ++ (List.replicate n ' ' ++ r))) :
    LaidMembers column ((k, t) :: ms) n r (k.toList ++ ':' ::
      (t.block column ++ (lines column ms ++ (List.replicate n ' ' ++ r)))) := by
  induction ms generalizing k t with
  | nil =>
    rw [lines, List.nil_append]
    exact .last (hkeys _ List.mem_cons_self) (hvalues _ List.mem_cons_self n r hr)
  | cons m ms ih =>
    obtain ⟨k', t'⟩ := m
    rw [List.forall_mem_cons] at hkeys hvalues
    rw [lines_cons]
    exact .more hkeys.1 (hvalues.1 _ _ (startsSolid_key (hkeys.2 _ List.mem_cons_self) _))
      (ih hkeys.2 hvalues.2)

/-- A tidy tree is laid out by its canonical text. -/
theorem laidValue_block {t : Tree} (ht : t.Tidy 1024) : ∀ (column n : Nat) (r : List Char),
    StartsSolid r → LaidValue column t n r (t.block column ++ (List.replicate n ' ' ++ r)) := by
  induction ht with
  | @leaf w hw =>
    intro column n r hr
    have hleaf : LaidValue column (.leaf w) n r
        ([' '] ++ (w.toList ++ '\n' :: (List.replicate n ' ' ++ r))) :=
      .leaf hw (by simp [isBlank]) (by simp) (lineEnd_spaces hr)
    rw [block, List.cons_append, List.append_assoc]
    exact hleaf
  | @node step ms hstep hne hkeys _ ih =>
    intro column n r hr
    obtain ⟨⟨k, t⟩, ms, rfl⟩ := List.exists_cons_of_ne_nil hne
    rw [block, List.cons_append, lines_cons]
    refine .node hstep (lineEnd_spaces (startsSolid_key (hkeys _ List.mem_cons_self) _)) ?_
    exact laidMembers_lines hr hkeys fun m hm => ih m hm _

/-- The lines of a tidy mapping are laid out. -/
theorem laid_lines {column step : Nat} {ms : List (String × Tree)}
    (h : (node step ms).Tidy 1024) : Laid ms (lines column ms) := by
  cases h with
  | node _ hne hkeys htidy =>
    obtain ⟨⟨k, t⟩, ms, rfl⟩ := List.exists_cons_of_ne_nil hne
    have hlines := lines_cons column k t ms []
    rw [List.append_nil] at hlines
    rw [hlines]
    refine .intro (.token (startsSolid_key (hkeys _ List.mem_cons_self) _)) ?_
    exact laidMembers_lines (n := 0) (r := []) (by simp [StartsSolid]) hkeys
      fun m hm => laidValue_block (htidy m hm) column

end Tree

end MuxBridge.Yaml
