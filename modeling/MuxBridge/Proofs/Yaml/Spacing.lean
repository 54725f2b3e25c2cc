/-
# Spacing

What may stand between the tokens of a text in lines: blanks, comments, line breaks, and whole lines
without a token. Such text is told together with what follows it, since it may depend on that: a
carriage return in front of a line feed is no break of its own, and the column of the next token
counts, but not where the text ends.

* `Breaks`: a line break;
* `LineStart`: what stands between the start of a line and the next token;
* `LineEnd`: what stands between a token and the next one on a later line.
-/
import MuxBridge.Proofs.Yaml.Words

namespace MuxBridge.Yaml

/-! ## Lines -/

/-- A text starts with a line break, and `r` follows. A carriage return and a line feed are one
break together. -/
inductive Breaks (r : List Char) : List Char → Prop
  | pair : Breaks r ('\r' :: '\n' :: r)
  | single {b : Char} (hb : isBreak b = true) (hr : b = '\r' → r.head? ≠ some '\n') :
    Breaks r (b :: r)

/-- A comment, which goes on to the end of its line, or nothing. -/
inductive IsComment : List Char → Prop
  | none : IsComment []
  | hash {text : List Char} (h : ∀ c ∈ text, isAllowed c = true ∧ isBreak c = false) :
    IsComment ('#' :: text)

/-- Whether a text is a comment is found out character by character. -/
theorem IsComment.of_all {text : List Char}
    (h : text.all (fun c => isAllowed c && !isBreak c) = true) : IsComment ('#' :: text) := by
  refine .hash ?_
  intro c hc
  simpa using List.all_eq_true.mp h c hc

/-- A text at the start of a line has no tokens in front of `r`, which stands in column `n` unless
it is empty. -/
inductive LineStart (n : Nat) (r : List Char) : List Char → Prop
  | token (hr : StartsSolid r) : LineStart n r (List.replicate n ' ' ++ r)
  | last (hr : r = []) (m : Nat) {comment : List Char} (hcomment : IsComment comment) :
    LineStart n r (List.replicate m ' ' ++ comment)
  | line (m : Nat) {comment cs ds : List Char} (hcomment : IsComment comment)
    (hbreak : Breaks cs ds) (h : LineStart n r cs) :
    LineStart n r (List.replicate m ' ' ++ (comment ++ ds))

/-- A text behind a token has no tokens in front of `r`, which stands on a later line in column `n`
unless it is empty. A comment needs a blank in front of it. -/
inductive LineEnd (n : Nat) (r : List Char) : List Char → Prop
  | last (hr : r = []) {blanks comment : List Char} (hblanks : ∀ c ∈ blanks, isBlank c = true)
    (hcomment : IsComment comment) (hsep : comment ≠ [] → blanks ≠ []) :
    LineEnd n r (blanks ++ comment)
  | line {blanks comment cs ds : List Char} (hblanks : ∀ c ∈ blanks, isBlank c = true)
    (hcomment : IsComment comment) (hsep : comment ≠ [] → blanks ≠ []) (hbreak : Breaks cs ds)
    (h : LineStart n r cs) : LineEnd n r (blanks ++ (comment ++ ds))

/-! ## Characters -/

theorem isAllowed_of_isBlank {c : Char} (h : isBlank c = true) : isAllowed c = true := by
  simp only [isBlank, Bool.or_eq_true, decide_eq_true_eq] at h
  rcases h with rfl | rfl
  · decide
  · decide

theorem isAllowed_of_isBreak {c : Char} (h : isBreak c = true) : isAllowed c = true := by
  simp only [isBreak, Bool.or_eq_true, decide_eq_true_eq] at h
  rcases h with (((rfl | rfl) | h) | h) | h
  · decide
  · decide
  · simp [isAllowed, h]
  · simp [isAllowed, h]
  · simp [isAllowed, h]

/-- A line break is no blank, no mark of a comment and no mark of an order of bytes. -/
theorem not_blank_of_isBreak {c : Char} (h : isBreak c = true) :
    (c ≠ ' ' ∧ c ≠ '\t' ∧ c.toNat ≠ 0xfeff) ∧ c ≠ '#' := by
  have hother : ∀ {x : Char}, isBreak x = false → c ≠ x := by
    rintro x hx rfl
    rw [h] at hx
    cases hx
  refine ⟨⟨hother (by decide), hother (by decide), ?_⟩, hother (by decide)⟩
  intro hmark
  obtain rfl : Char.ofNat 0xfeff = c := by rw [← hmark, Char.ofNat_toNat]
  exact absurd h (by decide)

theorem isBlank_of_mem_spaces {n : Nat} {c : Char} (hc : c ∈ List.replicate n ' ') :
    isBlank c = true := by
  rw [List.eq_of_mem_replicate hc]
  decide

theorem IsComment.isAllowed_of_mem {comment : List Char} (h : IsComment comment) :
    ∀ c ∈ comment, isAllowed c = true := by
  cases h with
  | none => simp
  | hash h =>
    rw [List.forall_mem_cons]
    exact ⟨by decide, fun c hc => (h c hc).1⟩

section Characters

variable {n : Nat} {r cs : List Char} (hr : ∀ c ∈ r, isAllowed c = true)

include hr

theorem Breaks.isAllowed_of_mem (h : Breaks r cs) : ∀ c ∈ cs, isAllowed c = true := by
  cases h with
  | pair =>
    rw [List.forall_mem_cons, List.forall_mem_cons]
    exact ⟨by decide, by decide, hr⟩
  | single hb _ =>
    rw [List.forall_mem_cons]
    exact ⟨isAllowed_of_isBreak hb, hr⟩

/-- Spacing may be read wherever the text behind it may. -/
theorem LineStart.isAllowed_of_mem (h : LineStart n r cs) : ∀ c ∈ cs, isAllowed c = true := by
  have hspaces : ∀ m, ∀ c ∈ List.replicate m ' ', isAllowed c = true :=
    fun m c hc => isAllowed_of_isBlank (isBlank_of_mem_spaces hc)
  induction h with
  | token _ =>
    rw [List.forall_mem_append]
    exact ⟨hspaces n, hr⟩
  | last _ m hcomment =>
    rw [List.forall_mem_append]
    exact ⟨hspaces m, hcomment.isAllowed_of_mem⟩
  | line m hcomment hbreak _ ih =>
    rw [List.forall_mem_append, List.forall_mem_append]
    exact ⟨hspaces m, hcomment.isAllowed_of_mem, hbreak.isAllowed_of_mem ih⟩

theorem LineEnd.isAllowed_of_mem (h : LineEnd n r cs) : ∀ c ∈ cs, isAllowed c = true := by
  cases h with
  | last _ hblanks hcomment _ =>
    rw [List.forall_mem_append]
    exact ⟨fun c hc => isAllowed_of_isBlank (hblanks c hc), hcomment.isAllowed_of_mem⟩
  | line hblanks hcomment _ hbreak h =>
    rw [List.forall_mem_append, List.forall_mem_append]
    exact ⟨fun c hc => isAllowed_of_isBlank (hblanks c hc), hcomment.isAllowed_of_mem,
      hbreak.isAllowed_of_mem (h.isAllowed_of_mem hr)⟩

end Characters

/-! ## Starts -/

theorem Breaks.length_lt {r cs : List Char} (h : Breaks r cs) : r.length < cs.length := by
  cases h with
  | pair => simp only [List.length_cons]; omega
  | single => exact Nat.lt_succ_self r.length

/-- A line break is a break. -/
theorem Breaks.startsBreak {r cs : List Char} (h : Breaks r cs) : startsBreak cs = true := by
  cases h with
  | pair => rfl
  | single hb _ => exact hb

/-- What stands behind a token does not belong to it. -/
theorem LineEnd.startsBlank {n : Nat} {r cs : List Char} (h : LineEnd n r cs) :
    startsBlank cs = true := by
  have hstart : ∀ {blanks comment : List Char} (ds : List Char),
      (∀ c ∈ blanks, isBlank c = true) → (comment ≠ [] → blanks ≠ []) →
        Yaml.startsBreak ds = true → Yaml.startsBlank (blanks ++ (comment ++ ds)) = true := by
    intro blanks comment ds hblanks hsep hds
    cases blanks with
    | cons x blanks => simp [Yaml.startsBlank, hblanks x List.mem_cons_self]
    | nil =>
      have hcomment : comment = [] := by simpa using hsep
      subst hcomment
      cases ds with
      | nil => rfl
      | cons d ds =>
        have hd : isBreak d = true := hds
        simp [Yaml.startsBlank, hd]
  cases h with
  | last _ hblanks _ hsep =>
    have h := hstart [] hblanks hsep rfl
    rwa [List.append_nil] at h
  | line hblanks _ hsep hbreak _ => exact hstart _ hblanks hsep hbreak.startsBreak

namespace Cursor

/-- Behind a line break, a cursor stands at the start of a line. -/
theorem lineBreak?_of_breaks {c : Cursor} {r : List Char} (h : Breaks r c.rest) :
    ∃ b next, c.lineBreak? = some (b, next) ∧ next.rest = r ∧ next.column = 0 := by
  generalize hrest : c.rest = cs at h
  cases h with
  | pair => exact ⟨'\n', c.newLine 2, by simp [lineBreak?, hrest], by simp [newLine, hrest], rfl⟩
  | @single b hb hr =>
    -- only the separators of lines and paragraphs stay what they are
    let kept := if b.toNat = 0x2028 ∨ b.toNat = 0x2029 then b else '\n'
    refine ⟨kept, c.newLine 1, ?_, newLine_rest_of_cons hrest, rfl⟩
    unfold lineBreak?
    split
    · next hpair =>
      rw [hrest] at hpair
      obtain ⟨rfl, rfl⟩ := List.cons.inj hpair
      exact absurd rfl (hr rfl)
    · next x _ _ hsingle =>
      rw [hrest] at hsingle
      obtain ⟨rfl, rfl⟩ := List.cons.inj hsingle
      rw [if_pos hb]
    · next hnil =>
      rw [hrest] at hnil
      cases hnil

end Cursor

end MuxBridge.Yaml
