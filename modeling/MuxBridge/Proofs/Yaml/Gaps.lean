/-
# Gaps

How spacing is passed over. Between tokens a layout skips it; behind a plain word it is read as a
gap in the scalar, which might go on, and what is left of it is skipped afterwards. Either way
reading comes to the next token, in its column, or to the end of the text.

* `Layout.skipGap_blanks`, `Layout.skipGap_line`: what a layout skips in a line;
* `Layout.leads_of_lineStart`, `Layout.leads_of_lineEnd`: where spacing leads to;
* `Layout.readPlain_lastWord`: a plain word at the end of its line.
-/
import MuxBridge.Proofs.Yaml.Spacing

namespace MuxBridge.Yaml

/-! ## Gaps in scalars -/

namespace Gap

variable {indent : Nat} {g : Gap} {c : Cursor} {r : List Char}

/-- Nothing but a blank or a line break belongs to a gap. -/
theorem read_of_not_blank (h : ∀ x ∈ c.rest.head?, isBlank x = false ∧ isBreak x = false)
    (fuel : Nat) : read indent (fuel + 1) g c = some (g, c) := by
  have hbreak : c.lineBreak? = Option.none := by
    unfold Cursor.lineBreak?
    split
    · next hrest =>
      rw [hrest] at h
      exact absurd (h _ rfl).2 (by decide)
    · next x _ _ hrest =>
      rw [hrest] at h
      rw [if_neg (by simp [(h x rfl).2])]
    · rfl
  rw [read, hbreak]
  cases hrest : c.rest with
  | nil => rfl
  | cons x r =>
    rw [hrest] at h
    simp [(h x rfl).1]

/-- Blanks in front of a line break are kept. -/
theorem read_blanks {blanks : List Char} (hblanks : ∀ x ∈ blanks, isBlank x = true)
    (hc : c.rest = blanks ++ r) (hg : g.leavesLine = false) (fuel : Nat) :
    read indent (fuel + blanks.length) g c
      = read indent fuel { g with blanks := g.blanks ++ blanks } (c.advance blanks.length) := by
  induction blanks generalizing g c with
  | nil => simp
  | cons x blanks ih =>
    rw [List.forall_mem_cons] at hblanks
    have hrest : c.rest = x :: (blanks ++ r) := hc
    have hbreak : c.lineBreak? = Option.none := by
      have hx : x = ' ' ∨ x = '\t' := by simpa [isBlank] using hblanks.1
      rcases hx with rfl | rfl
      · simp [Cursor.lineBreak?, hrest, isBreak]
      · simp [Cursor.lineBreak?, hrest, isBreak]
    have hkept : leavesLine { g with blanks := g.blanks ++ [x] } = false := hg
    rw [List.length_cons, ← Nat.add_assoc, read, hbreak, hrest]
    simp only [hblanks.1, hg, if_true, Bool.false_eq_true, if_false]
    rw [ih hblanks.2 (Cursor.advance_rest_of_cons hrest) hkept, Cursor.advance_advance,
      Nat.add_comm 1]
    simp

/-- Behind a line break, spaces are dropped. -/
theorem read_spaces {m : Nat} (hc : c.rest = List.replicate m ' ' ++ r) (hg : g.leavesLine = true)
    (fuel : Nat) : read indent (fuel + m) g c = read indent fuel g (c.advance m) := by
  induction m generalizing c with
  | zero => simp
  | succ m ih =>
    have hrest : c.rest = ' ' :: (List.replicate m ' ' ++ r) := hc
    have hbreak : c.lineBreak? = Option.none := by simp [Cursor.lineBreak?, hrest, isBreak]
    rw [← Nat.add_assoc, read, hbreak, hrest]
    simp only [isBlank, hg, decide_true, Bool.true_or, if_true]
    rw [if_neg (by simp), ih (Cursor.advance_rest_of_cons hrest), Cursor.advance_advance,
      Nat.add_comm]

/-- A line break belongs to a gap, which goes on at the start of a line. -/
theorem read_break (indent : Nat) (g : Gap) (h : Breaks r c.rest) : ∃ (b : Char) (next : Cursor),
    next.rest = r ∧ next.column = 0 ∧ ∀ fuel, read indent (fuel + 1) g c
      = read indent fuel { g with breaks := g.breaks ++ [b] } next := by
  obtain ⟨b, next, hline, hrest, hcolumn⟩ := Cursor.lineBreak?_of_breaks h
  refine ⟨b, next, hrest, hcolumn, ?_⟩
  intro fuel
  rw [read, hline]

end Gap

namespace Layout

/-! ## Gaps between tokens -/

/-- A byte order mark stands in front of no text that starts with a token or a gap. -/
theorem skipOrderMark_eq {c : Cursor} (h : ∀ x ∈ c.rest.head?, x.toNat ≠ 0xfeff) :
    c.skipOrderMark = c := by
  unfold Cursor.skipOrderMark
  split
  · next x _ hrest =>
    rw [hrest] at h
    rw [if_neg (by simp [h x rfl])]
  · rfl

theorem skipComment_eq {c : Cursor} (h : c.rest.head? ≠ some '#') : c.skipComment = c := by
  unfold Cursor.skipComment
  split
  · next hrest =>
    rw [hrest] at h
    exact absurd rfl h
  · rfl

/-- What a token starts with is no part of a gap. -/
theorem isSolid_iff {c : Char} : isSolid c = true ↔
    c ≠ ' ' ∧ c ≠ '\t' ∧ isBreak c = false ∧ c ≠ '#' ∧ c.toNat ≠ 0xfeff := by
  simp [isSolid, isBlank, and_assoc]

/-- Characters of a class are taken up to the first one that is not in it. -/
theorem takeWhile_append_of_stop {p : Char → Bool} {cs ds : List Char}
    (hcs : ∀ x ∈ cs, p x = true) (hds : ∀ x ∈ ds.head?, p x = false) :
    (cs ++ ds).takeWhile p = cs := by
  have hstop : ds.takeWhile p = [] := by
    cases ds with
    | nil => rfl
    | cons x ds => rw [List.takeWhile_cons_of_neg (by simp [hds x rfl])]
  rw [List.takeWhile_append_of_pos hcs, hstop, List.append_nil]

/-- The blanks that a layout skips: where a key may start, tabs are none. -/
def Skips (keyAllowed : Bool) (x : Char) : Prop := x = ' ' ∨ (x = '\t' ∧ keyAllowed = false)

theorem skips_spaces (allowed : Bool) {m : Nat} : ∀ x ∈ List.replicate m ' ', Skips allowed x :=
  fun _ hx => .inl (List.eq_of_mem_replicate hx)

theorem skips_nil (allowed : Bool) : ∀ x ∈ [], Skips allowed x := by simp

theorem skips_blanks {blanks : List Char} (h : ∀ x ∈ blanks, isBlank x = true) :
    ∀ x ∈ blanks, Skips false x := by
  intro x hx
  have hblank := h x hx
  simpa [Skips, isBlank] using hblank

section Gaps

variable {s : Layout} {blanks comment r : List Char}
  (hblanks : ∀ x ∈ blanks, Skips s.keyAllowed x)

include hblanks

/-- Blanks are skipped up to what is none. -/
theorem skipWhile_blanks (hs : s.cursor.rest = blanks ++ r)
    (hr : ∀ x ∈ r.head?, x ≠ ' ' ∧ x ≠ '\t' ∧ x.toNat ≠ 0xfeff) :
    s.cursor.skipOrderMark.skipWhile (fun x => x = ' ' || (x = '\t' && (s.inFlow || !s.keyAllowed)))
      = s.cursor.advance blanks.length := by
  have hmark : s.cursor.skipOrderMark = s.cursor := by
    refine skipOrderMark_eq ?_
    rw [hs]
    cases blanks with
    | nil => exact fun x hx => (hr x hx).2.2
    | cons y blanks =>
      rintro x ⟨⟩
      rcases hblanks y List.mem_cons_self with rfl | ⟨rfl, -⟩
      · decide
      · decide
  rw [hmark, Cursor.skipWhile, hs, takeWhile_append_of_stop]
  · intro x hx
    rcases hblanks x hx with rfl | ⟨rfl, hkey⟩
    · rfl
    · simp [hkey]
  · intro x hx
    simp [(hr x hx).1, (hr x hx).2.1]

/-- Blanks in front of a token are skipped. -/
theorem skipGap_blanks (hs : s.cursor.rest = blanks ++ r) (hr : StartsSolid r) (fuel : Nat) :
    s.skipGap (fuel + 1) = { s with cursor := s.cursor.advance blanks.length } := by
  have hsolid : ∀ x ∈ r.head?, x ≠ ' ' ∧ x ≠ '\t' ∧ x.toNat ≠ 0xfeff := by
    intro x hx
    obtain ⟨hspace, htab, -, -, hmark⟩ := isSolid_iff.mp (hr x hx)
    exact ⟨hspace, htab, hmark⟩
  have hrest : (s.cursor.advance blanks.length).rest = r := Cursor.advance_rest_of_append hs
  have hcomment : (s.cursor.advance blanks.length).skipComment
      = s.cursor.advance blanks.length := by
    refine skipComment_eq ?_
    rw [hrest]
    exact fun h => (isSolid_iff.mp (hr '#' h)).2.2.2.1 rfl
  have hbreak : (s.cursor.advance blanks.length).lineBreak? = none :=
    Cursor.lineBreak?_of_startsSolid (by rw [hrest]; exact hr)
  rw [skipGap]
  simp only [skipWhile_blanks hblanks hs hsolid, hcomment, hbreak]

/-- So are blanks and a comment at the end of a line. -/
theorem skipComment_blanks (hs : s.cursor.rest = blanks ++ (comment ++ r))
    (hcomment : IsComment comment) (hr : startsBreak r = true) :
    (s.cursor.skipOrderMark.skipWhile
        fun x => x = ' ' || (x = '\t' && (s.inFlow || !s.keyAllowed))).skipComment
      = s.cursor.advance (blanks.length + comment.length) := by
  have hnext : ∀ x ∈ r.head?, (x ≠ ' ' ∧ x ≠ '\t' ∧ x.toNat ≠ 0xfeff) ∧ x ≠ '#' := by
    intro x hx
    obtain ⟨r, rfl⟩ : ∃ r', r = x :: r' := List.head?_eq_some_iff.mp hx
    exact not_blank_of_isBreak hr
  have hrest : (s.cursor.advance blanks.length).rest = comment ++ r :=
    Cursor.advance_rest_of_append hs
  cases hcomment with
  | none =>
    rw [skipWhile_blanks hblanks hs fun x hx => (hnext x hx).1]
    refine skipComment_eq ?_
    rw [hrest]
    exact fun h => (hnext '#' h).2 rfl
  | @hash text htext =>
    have hline : ∀ x ∈ '#' :: text, (!isBreak x) = true := by
      rw [List.forall_mem_cons]
      exact ⟨by decide, fun x hx => by simp [(htext x hx).2]⟩
    have hend : ∀ x ∈ r.head?, (!isBreak x) = false := by
      intro x hx
      obtain ⟨r, rfl⟩ : ∃ r', r = x :: r' := List.head?_eq_some_iff.mp hx
      have hx : isBreak x = true := hr
      rw [hx, Bool.not_true]
    have hhash : (s.cursor.advance blanks.length).rest = '#' :: (text ++ r) := hrest
    rw [skipWhile_blanks hblanks hs (by rintro x ⟨⟩; decide), Cursor.skipComment, hhash]
    simp only
    rw [Cursor.skipWhile, hrest, takeWhile_append_of_stop hline hend, Cursor.advance_advance]

/-- The rest of a line is skipped with its break; outside brackets a key may start behind it. -/
theorem skipGap_line {cs : List Char} (hflow : s.outerKeys = [])
    (hs : s.cursor.rest = blanks ++ (comment ++ r)) (hcomment : IsComment comment)
    (hbreak : Breaks cs r) :
    ∃ c : Cursor, c.rest = cs ∧ c.column = 0 ∧ ∀ fuel, s.skipGap (fuel + 1)
      = skipGap fuel { s with cursor := c, keyAllowed := true } := by
  have hskip := skipComment_blanks hblanks hs hcomment hbreak.startsBreak
  have hrest : (s.cursor.advance (blanks.length + comment.length)).rest = r := by
    rw [← List.length_append]
    exact Cursor.advance_rest_of_append (by rw [hs, List.append_assoc])
  obtain ⟨b, c, hline, hc, hcolumn⟩ := Cursor.lineBreak?_of_breaks (hrest.symm ▸ hbreak)
  refine ⟨c, hc, hcolumn, ?_⟩
  intro fuel
  rw [skipGap]
  simp only [hskip, hline]
  simp [inFlow, hflow]

/-- The last line is skipped up to the end of the text. -/
theorem skipGap_last (hs : s.cursor.rest = blanks ++ comment) (hcomment : IsComment comment)
    (fuel : Nat) : ∃ c : Cursor, c.rest = [] ∧ s.skipGap (fuel + 1) = { s with cursor := c } := by
  have hend : s.cursor.rest = blanks ++ (comment ++ []) := by rw [hs, List.append_nil]
  have hskip := skipComment_blanks hblanks hend hcomment rfl
  have hrest : (s.cursor.advance (blanks.length + comment.length)).rest = [] := by
    rw [← List.length_append]
    exact Cursor.advance_rest_of_append (by rw [hs, List.append_nil])
  have hbreak : (s.cursor.advance (blanks.length + comment.length)).lineBreak? = none :=
    Cursor.lineBreak?_of_startsSolid (by simp [hrest, StartsSolid])
  refine ⟨_, hrest, ?_⟩
  rw [skipGap]
  simp only [hskip, hbreak]

end Gaps

/-- There is no gap in front of a token that follows directly. -/
theorem skipGap_of_startsSolid {s : Layout} (hs : StartsSolid s.cursor.rest) (fuel : Nat) :
    s.skipGap (fuel + 1) = s := by
  rw [skipGap_blanks (skips_nil _) rfl hs, List.length_nil, Cursor.advance_zero]

/-- Wherever a layout stands at a cursor outside brackets, its gap ends in front of `r`. If that is
not empty, it stands in column `n` and a key may start there. -/
structure Leads (c : Cursor) (allowed : Bool) (n : Nat) (r : List Char) : Prop where
  length_le : r.length ≤ c.rest.length
  skipGap_eq : ∀ s : Layout, s.cursor = c → s.keyAllowed = allowed → s.outerKeys = [] →
    ∀ fuel, c.rest.length < fuel → ∃ (c' : Cursor) (allowed' : Bool),
      s.skipGap fuel = { s with cursor := c', keyAllowed := allowed' } ∧ c'.rest = r ∧
        (r ≠ [] → c'.column = n ∧ allowed' = true)

section Leads

variable {c : Cursor} {allowed : Bool} {n : Nat} {r blanks comment cs ds : List Char}

/-- Spaces lead to the token behind them. -/
theorem leads_token {m : Nat} (hc : c.rest = List.replicate m ' ' ++ r) (hr : StartsSolid r)
    (hcolumn : c.column + m = n) : Leads c true n r := by
  refine ⟨by rw [hc, List.length_append]; exact Nat.le_add_left _ _, ?_⟩
  rintro s rfl hallowed - fuel hfuel
  obtain ⟨fuel, rfl⟩ := Nat.exists_eq_add_of_lt (Nat.zero_lt_of_lt hfuel)
  have hskip := skipGap_blanks (skips_spaces s.keyAllowed) hc hr (0 + fuel)
  rw [List.length_replicate] at hskip
  refine ⟨s.cursor.advance m, true, ?_, Cursor.advance_rest_of_spaces hc, fun _ => ⟨hcolumn, rfl⟩⟩
  rw [hskip, ← hallowed]

/-- Blanks and a comment lead to the end of the text behind them. -/
theorem leads_last (hblanks : ∀ x ∈ blanks, Skips allowed x)
    (hc : c.rest = blanks ++ comment) (hcomment : IsComment comment) (hr : r = []) :
    Leads c allowed n r := by
  subst hr
  refine ⟨Nat.zero_le _, ?_⟩
  rintro s rfl rfl - fuel hfuel
  obtain ⟨fuel, rfl⟩ := Nat.exists_eq_add_of_lt (Nat.zero_lt_of_lt hfuel)
  obtain ⟨c', hrest, hskip⟩ := skipGap_last (s := s) hblanks hc hcomment (0 + fuel)
  exact ⟨c', s.keyAllowed, hskip, hrest, fun hne => absurd rfl hne⟩

/-- Blanks, a comment and a line break lead to where the line behind them leads. -/
theorem leads_line (hblanks : ∀ x ∈ blanks, Skips allowed x)
    (hc : c.rest = blanks ++ (comment ++ ds)) (hcomment : IsComment comment) (hbreak : Breaks cs ds)
    (h : ∀ c' : Cursor, c'.rest = cs → c'.column = 0 → Leads c' true n r) :
    Leads c allowed n r := by
  have hlt := hbreak.length_lt
  have hlength : c.rest.length = blanks.length + (comment.length + ds.length) := by
    rw [hc, List.length_append, List.length_append]
  refine ⟨?_, ?_⟩
  · have hle := (h ⟨cs, 0, 0, 0⟩ rfl rfl).length_le
    have hcs : r.length ≤ cs.length := hle
    omega
  · rintro s rfl rfl hflow fuel hfuel
    obtain ⟨fuel, rfl⟩ := Nat.exists_eq_add_of_lt (Nat.zero_lt_of_lt hfuel)
    obtain ⟨c', hrest, hzero, hskip⟩ := skipGap_line (s := s) hblanks hflow hc hcomment hbreak
    -- the line has its break at least, so there are steps enough for what is left
    obtain ⟨c'', allowed, hgap, hend⟩ := (h c' hrest hzero).skipGap_eq
      { s with cursor := c', keyAllowed := true } rfl rfl hflow (0 + fuel) (by rw [hrest]; omega)
    exact ⟨c'', allowed, (hskip _).trans hgap, hend⟩

/-- Lines without tokens lead to the token behind them. -/
theorem leads_of_lineStart (h : LineStart n r cs) :
    ∀ c : Cursor, c.rest = cs → c.column = 0 → Leads c true n r := by
  induction h with
  | token hr => exact fun c hc hcolumn => leads_token hc hr (by rw [hcolumn, Nat.zero_add])
  | last hr m hcomment => exact fun c hc _ => leads_last (skips_spaces true) hc hcomment hr
  | line m hcomment hbreak _ ih =>
    exact fun c hc _ => leads_line (skips_spaces true) hc hcomment hbreak ih

/-- So does the end of a line with the lines behind it. -/
theorem leads_of_lineEnd (h : LineEnd n r cs) (hc : c.rest = cs) : Leads c false n r := by
  cases h with
  | last hr hblanks hcomment _ => exact leads_last (skips_blanks hblanks) hc hcomment hr
  | line hblanks hcomment _ hbreak h =>
    exact leads_line (skips_blanks hblanks) hc hcomment hbreak (leads_of_lineStart h)

end Leads

/-! ## Words at the end of a line -/

/-- Reading the gap behind a word stops at a comment or in front of the text `r`, which is where a
layout is led to from there. -/
def StopsBefore (indent fuel : Nat) (g : Gap) (c : Cursor) (n : Nat) (r : List Char) : Prop :=
  ∃ g' c', Gap.read indent fuel g c = some (g', c') ∧ Leads c' g'.leavesLine n r ∧
    (c'.rest.head? = some '#' ∨ (c'.rest = r ∧ (r ≠ [] → c'.column = n))) ∧
    c'.rest.length ≤ c.rest.length

section Gaps

variable {indent fuel n : Nat} {g : Gap} {c : Cursor} {r comment cs ds : List Char}

theorem StopsBefore.of_read {fuel' : Nat} {g' : Gap} {c' : Cursor}
    (hread : Gap.read indent fuel g c = Gap.read indent fuel' g' c')
    (hle : c'.rest.length ≤ c.rest.length) (h : StopsBefore indent fuel' g' c' n r) :
    StopsBefore indent fuel g c n r := by
  obtain ⟨g'', c'', hend, hleads, hstop, hlength⟩ := h
  exact ⟨g'', c'', hread.trans hend, hleads, hstop, hlength.trans hle⟩

/-- A gap stops in front of the text that it leads to. -/
theorem stopsBefore_token (hc : c.rest = r) (hr : StartsSolid r) (hcolumn : r ≠ [] → c.column = n)
    (hleads : Leads c g.leavesLine n r) (hfuel : 0 < fuel) : StopsBefore indent fuel g c n r := by
  obtain ⟨fuel, rfl⟩ := Nat.exists_eq_add_of_lt hfuel
  refine ⟨g, c, Gap.read_of_not_blank ?_ _, hleads, .inr ⟨hc, hcolumn⟩, Nat.le_refl _⟩
  intro x hx
  have hsolid := hr x (hc ▸ hx)
  simp only [isSolid, Bool.and_eq_true, Bool.not_eq_true'] at hsolid
  exact hsolid.1.1

/-- A gap stops in front of a comment. -/
theorem stopsBefore_comment {text : List Char} (hc : c.rest = '#' :: text)
    (hleads : Leads c g.leavesLine n r) (hfuel : 0 < fuel) : StopsBefore indent fuel g c n r := by
  obtain ⟨fuel, rfl⟩ := Nat.exists_eq_add_of_lt hfuel
  refine ⟨g, c, Gap.read_of_not_blank ?_ _, hleads, .inl (by rw [hc]; rfl), Nat.le_refl _⟩
  rw [hc]
  rintro x ⟨⟩
  decide

/-- A gap stops at the end of the last line, or at the comment there. -/
theorem stopsBefore_last (hc : c.rest = comment) (hcomment : IsComment comment) (hr : r = [])
    (hfuel : 0 < fuel) : StopsBefore indent fuel g c n r := by
  have hleads : Leads c g.leavesLine n r := leads_last (skips_nil _) hc hcomment hr
  subst hr
  cases hcomment with
  | none =>
    exact stopsBefore_token hc (by simp [StartsSolid]) (fun hne => absurd rfl hne) hleads hfuel
  | hash _ => exact stopsBefore_comment hc hleads hfuel

/-- A gap goes on behind the break of a line, or stops at the comment there. -/
theorem stopsBefore_line (hc : c.rest = comment ++ ds) (hcomment : IsComment comment)
    (hbreak : Breaks cs ds) (hstart : LineStart n r cs)
    (h : ∀ (c : Cursor) (g : Gap) (fuel : Nat), c.rest = cs → c.column = 0 → g.leavesLine = true →
      c.rest.length < fuel → StopsBefore indent fuel g c n r)
    (hfuel : c.rest.length < fuel) : StopsBefore indent fuel g c n r := by
  cases hcomment with
  | none =>
    have hnext : Breaks cs c.rest := hc ▸ hbreak
    obtain ⟨b, next, hrest, hcolumn, hread⟩ := Gap.read_break indent g hnext
    obtain ⟨fuel, rfl⟩ := Nat.exists_eq_add_of_lt (Nat.zero_lt_of_lt hfuel)
    have hlt : next.rest.length < c.rest.length := by
      rw [hrest, hc]
      exact hbreak.length_lt
    refine .of_read (hread _) hlt.le ?_
    exact h next _ _ hrest hcolumn (by simp [Gap.leavesLine]) (by omega)
  | hash htext =>
    have hleads : Leads c g.leavesLine n r :=
      leads_line (skips_nil _) hc (.hash htext) hbreak (leads_of_lineStart hstart)
    exact stopsBefore_comment hc hleads (Nat.zero_lt_of_lt hfuel)

/-- Behind a line break, a gap goes on over lines without tokens. -/
theorem stopsBefore_of_lineStart (h : LineStart n r cs) : ∀ (c : Cursor) (g : Gap) (fuel : Nat),
    c.rest = cs → c.column = 0 → g.leavesLine = true → c.rest.length < fuel →
      StopsBefore indent fuel g c n r := by
  -- the indentation of every line is skipped first
  have hindent : ∀ (m : Nat) (ds : List Char), (∀ (c : Cursor) (g : Gap) (fuel : Nat), c.rest = ds →
      c.column = m → g.leavesLine = true → c.rest.length < fuel →
        StopsBefore indent fuel g c n r) →
      ∀ (c : Cursor) (g : Gap) (fuel : Nat), c.rest = List.replicate m ' ' ++ ds → c.column = 0 →
        g.leavesLine = true → c.rest.length < fuel → StopsBefore indent fuel g c n r := by
    intro m ds hds c g fuel hc hcolumn hg hfuel
    have hrest : (c.advance m).rest = ds := Cursor.advance_rest_of_spaces hc
    have hlength : c.rest.length = m + ds.length := by
      rw [hc, List.length_append, List.length_replicate]
    obtain ⟨fuel, rfl⟩ := Nat.exists_eq_add_of_le' (show m ≤ fuel by omega)
    refine .of_read (Gap.read_spaces hc hg fuel) (by rw [hrest]; omega) ?_
    exact hds _ g fuel hrest (by rw [Cursor.advance_column, hcolumn, Nat.zero_add]) hg
      (by rw [hrest]; omega)
  induction h with
  | token hr =>
    refine hindent n r ?_
    intro c g fuel hc hcolumn hg hfuel
    have hleads : Leads c true n r := leads_token (m := 0) hc hr hcolumn
    exact stopsBefore_token hc hr (fun _ => hcolumn) (hg ▸ hleads) (Nat.zero_lt_of_lt hfuel)
  | last hr m hcomment =>
    refine hindent m _ ?_
    intro c g fuel hc _ _ hfuel
    exact stopsBefore_last hc hcomment hr (Nat.zero_lt_of_lt hfuel)
  | line m hcomment hbreak h ih =>
    refine hindent m _ ?_
    intro c g fuel hc _ _ hfuel
    exact stopsBefore_line hc hcomment hbreak h ih hfuel

/-- The gap behind a word goes to the end of its line and on from there. -/
theorem stopsBefore_of_lineEnd (h : LineEnd n r cs) (hc : c.rest = cs)
    (hfuel : c.rest.length < fuel) : StopsBefore indent fuel .none c n r := by
  -- the blanks behind the word are read first
  have hblanks : ∀ {blanks ds : List Char}, (∀ x ∈ blanks, isBlank x = true) →
      c.rest = blanks ++ ds →
      (∀ (c : Cursor) (g : Gap) (fuel : Nat), c.rest = ds → c.rest.length < fuel →
        StopsBefore indent fuel g c n r) → StopsBefore indent fuel .none c n r := by
    intro blanks ds hblanks hc hds
    have hrest : (c.advance blanks.length).rest = ds := Cursor.advance_rest_of_append hc
    have hlength : c.rest.length = blanks.length + ds.length := by rw [hc, List.length_append]
    obtain ⟨fuel, rfl⟩ := Nat.exists_eq_add_of_le' (show blanks.length ≤ fuel by omega)
    refine .of_read (Gap.read_blanks hblanks hc rfl fuel) (by rw [hrest]; omega) ?_
    exact hds _ _ fuel hrest (by rw [hrest]; omega)
  cases h with
  | last hr hall hcomment _ =>
    refine hblanks hall hc ?_
    intro c g fuel hc hfuel
    exact stopsBefore_last hc hcomment hr (Nat.zero_lt_of_lt hfuel)
  | line hall hcomment _ hbreak h =>
    refine hblanks hall hc ?_
    intro c g fuel hc hfuel
    exact stopsBefore_line hc hcomment hbreak h (stopsBefore_of_lineStart h) hfuel

end Gaps

/-- A plain scalar has no further part at a comment or at the end of the text. -/
theorem readPlainParts_stop {indent : Nat} {text : List Char} {g : Gap} {c : Cursor}
    (h : c.rest.head? = some '#' ∨ c.rest = []) (fuel : Nat) :
    readPlainParts false indent (fuel + 1) text g c = some ⟨text, g.leavesLine, c⟩ := by
  rw [readPlainParts]
  rcases h with h | h
  · simp [h]
  · have hmarker : c.atAnyMarker = false := by simp [Cursor.atAnyMarker, Cursor.atMarker, h]
    simp [hmarker, h, plainRun.eq_def]

/-- A plain word ends with its line if the next token stands further left than the scalar has to.
Reading goes on where that token is next. -/
theorem readPlain_lastWord {w cs r : List Char} {indent n : Nat} {c : Cursor}
    (hw : ∀ x ∈ w, isLetter x = true) (hne : w ≠ []) (hc : c.rest = w ++ cs)
    (h : LineEnd n r cs) (hn : n < indent) : ∃ left c', readPlain false indent c
      = some ⟨w, left, c'⟩ ∧ Leads c' left n r ∧ c'.rest.length ≤ cs.length := by
  have hblank := h.startsBlank
  have hend : plainRun false cs = some [] := by
    rw [plainRun.eq_def]
    cases cs with
    | nil => rfl
    | cons x cs => exact if_pos hblank
  have hrun : plainRun false c.rest = some w := by
    rw [hc, plainRun_letters hw, hend, Option.map_some, List.append_nil]
  have hrest : (c.advance w.length).rest = cs := Cursor.advance_rest_of_append hc
  have hgap : StopsBefore indent _ .none (c.advance w.length) n r :=
    stopsBefore_of_lineEnd h hrest (Nat.lt_succ_self _)
  obtain ⟨g, c', hread, hleads, hstop, hlength⟩ := hgap
  rw [readPlain, readPlainParts, startsPart_of_letters hw hne hc, if_neg Bool.false_ne_true, hrun]
  obtain ⟨y, w, rfl⟩ := List.exists_cons_of_ne_nil hne
  cases cs with
  | nil =>
    refine ⟨false, c.advance (y :: w).length, ?_, leads_of_lineEnd h hrest, hrest ▸ Nat.le_refl _⟩
    simp only [hrest]
    rfl
  | cons x cs =>
    have hx : (isBlank x || isBreak x) = true := hblank
    refine ⟨g.leavesLine, c', ?_, hleads, hrest ▸ hlength⟩
    rw [hrest] at hread
    simp only [hrest, hx, if_true, hread]
    split
    · rfl
    -- where the column would do, there is a comment or the end of the text
    · next hcolumn =>
      have hstop' : c'.rest.head? = some '#' ∨ c'.rest = [] := by
        rcases hstop with hstop | ⟨hr, hplace⟩
        · exact .inl hstop
        · refine .inr ?_
          by_contra hne
          rw [hplace (hr ▸ hne)] at hcolumn
          simp [hn] at hcolumn
      rw [hc, List.cons_append, List.length_cons]
      exact readPlainParts_stop hstop' _

end Layout

end MuxBridge.Yaml
