/-
# One token after the other

What reading a token does where nothing is in doubt: the gap in front of it is skipped, keys that
have become stale are dropped, and blocks that end there are closed. A whole text is read by as many
of these steps as it has tokens, and every token takes up some text, so that the text always
suffices.

* `Layout.Reads`: one layout comes from another by reading tokens;
* `Layout.Reads.tokensOf_eq`: the tokens of a text that is read to its end;
* `Layout.next_of_gap`: the next token behind a gap.
-/
import MuxBridge.Proofs.Yaml.Words

namespace MuxBridge.Yaml

namespace Layout

/-! ## Runs -/

/-- Reading tokens leads from one layout to another. Every token takes up some text, and none of
them ends the stream. -/
inductive Reads : Layout → Layout → Prop
  | refl (s : Layout) : Reads s s
  | step {s t u : Layout} (hnext : s.next = some t) (hopen : t.tokens.getLast? ≠ some .streamEnd)
      (hshort : t.cursor.rest.length < s.cursor.rest.length) (h : Reads t u) : Reads s u

namespace Reads

variable {s t u : Layout}

theorem trans (hst : Reads s t) (htu : Reads t u) : Reads s u := by
  induction hst with
  | refl => exact htu
  | step hnext hopen hshort _ ih => exact .step hnext hopen hshort (ih htu)

/-- What is left of a run behind some tokens still has steps for all characters that are left. -/
theorem exists_run (h : Reads s u) : ∀ fuel, s.cursor.rest.length < fuel →
    ∃ fuel', u.cursor.rest.length < fuel' ∧
      run (fun _ => true) fuel s = run (fun _ => true) fuel' u := by
  induction h with
  | refl => exact fun fuel hfuel => ⟨fuel, hfuel, rfl⟩
  | step hnext hopen hshort _ ih =>
    intro fuel hfuel
    obtain ⟨fuel, rfl⟩ := Nat.exists_eq_add_of_lt (Nat.zero_lt_of_lt hfuel)
    -- a token takes up a character at least, so fuel and text go down together
    obtain ⟨fuel', hfuel', hrun⟩ := ih (0 + fuel) (by omega)
    refine ⟨fuel', hfuel', ?_⟩
    rw [run, hnext, ← hrun]
    simp [hopen]

/-- The tokens of a text that is read up to its end. -/
theorem run_eq (h : Reads s u) (hnext : u.next = some t)
    (hend : t.tokens.getLast? = some .streamEnd) {fuel : Nat}
    (hfuel : s.cursor.rest.length < fuel) : run (fun _ => true) fuel s = t.tokens := by
  obtain ⟨fuel', hfuel', hrun⟩ := h.exists_run fuel hfuel
  obtain ⟨fuel', rfl⟩ := Nat.exists_eq_add_of_lt (Nat.zero_lt_of_lt hfuel')
  rw [hrun, run, hnext]
  simp [hend]

/-- The tokens of a text that may be read and is read up to its end. -/
theorem tokensOf_eq {text : List Char} (hallowed : ∀ c ∈ text, isAllowed c = true)
    (h : Reads (Layout.start text) u) (hnext : u.next = some t)
    (hend : t.tokens.getLast? = some .streamEnd) : tokensOf text = t.tokens := by
  rw [tokensOf, if_pos (List.all_eq_true.mpr hallowed)]
  exact h.run_eq hnext hend (Nat.lt_succ_self text.length)

end Reads

/-! ## Stale keys -/

/-- A key on the same line stays possible for as long as it is short. -/
theorem freshen_some {c : Cursor} {k : KeyPlace} (hline : c.line ≤ k.line)
    (hindex : c.index ≤ k.index + 1024) : freshen c (some k) = some (some k) := by
  have hstale : isStale c k = false := by
    simp only [isStale, Bool.or_eq_false_iff, decide_eq_false_iff_not, Nat.not_lt]
    exact ⟨hline, hindex⟩
  simp [freshen, hstale]

theorem freshenKeys_of_outerKeys_nil {s : Layout} (hflow : s.outerKeys = [])
    (hkey : freshen s.cursor s.key = some s.key) : s.freshenKeys = some s := by
  obtain ⟨c, ts, bs, allowed, key, outer⟩ := s
  have hnil : outer = [] := hflow
  subst hnil
  have hkey : freshen c key = some key := hkey
  simp [freshenKeys, hkey]

/-! ## Blocks -/

/-- A block that ends no further left stays open. -/
theorem closeFrom_of_le {column : Int} {bs : List Nat} (h : ∀ b ∈ bs.head?, (b : Int) ≤ column)
    (ts : List Token) : closeFrom column bs ts = (bs, ts) := by
  cases bs with
  | nil => rfl
  | cons b bs => rw [closeFrom, if_neg (Int.not_lt.mpr (h b rfl))]

/-- Blocks may be closed in two goes. -/
theorem closeFrom_trans {m n : Int} (h : m ≤ n) (bs : List Nat) (ts : List Token) :
    closeFrom m bs ts = closeFrom m (closeFrom n bs ts).1 (closeFrom n bs ts).2 := by
  induction bs generalizing ts with
  | nil => rfl
  | cons b bs ih =>
    by_cases hb : n < b
    -- what ends to the right of the one column ends to the right of the other
    · rw [closeFrom, if_pos (Int.lt_of_le_of_lt h hb), closeFrom, if_pos hb]
      exact ih _
    · have hsame : closeFrom n (b :: bs) ts = (b :: bs, ts) :=
        closeFrom_of_le (by simpa using hb) ts
      rw [hsame]

/-- A token goes between the tokens in front of a place and those behind it. -/
theorem insert_of_append {s : Layout} {ts us : List Token} (h : s.tokens = ts ++ us) (t : Token) :
    s.insert ts.length t = { s with tokens := ts ++ t :: us } := by
  simp [insert, h]

/-! ## The next token -/

/-- The next token behind a gap, where no key is stale. -/
theorem next_of_gap {s t : Layout} (hgap : s.skipGap (s.cursor.rest.length + 1) = t)
    (hkeys : t.freshenKeys = some t) :
    s.next = ((t.closeBlocks t.cursor.column).readToken).bind freshenKeys := by
  simp only [next, hgap, hkeys, Option.bind_eq_bind, Option.bind_some]

/-- A letter starts a plain scalar. -/
theorem readToken_of_letter {s : Layout} {x : Char} {r : List Char} (hs : s.cursor.rest = x :: r)
    (hx : isLetter x = true) : s.readToken = s.plainScalar := by
  have hmarker := Cursor.atAnyMarker_of_letter hx hs
  simp only [Cursor.atAnyMarker, Bool.or_eq_false_iff] at hmarker
  have hne : ∀ y, isLetter y = false → x ≠ y := fun y hy => ne_of_isLetter hx hy
  have hplain : startsPlain s.inFlow x r = true := by
    simp [startsPlain, isIndicator_of_isLetter hx, isBlank_of_isLetter hx]
  rw [readToken, hs]
  simp [hmarker, hplain, hne '%' (by decide), hne '[' (by decide), hne '\x7b' (by decide),
    hne ']' (by decide), hne '\x7d' (by decide), hne ',' (by decide), hne '-' (by decide),
    hne '?' (by decide), hne ':' (by decide), hne '*' (by decide), hne '&' (by decide),
    hne '!' (by decide), hne '|' (by decide), hne '>' (by decide), hne apostrophe (by decide),
    hne '"' (by decide)]

end Layout

end MuxBridge.Yaml
