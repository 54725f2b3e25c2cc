/-
# Mappings in lines

The tokens of a mapping whose members stand one under the other. A key is a word until the colon
behind it is met; a value that is a word ends with its line, and reading goes on at the next line,
wherever that one starts. Blocks are closed only there, so what is said of the open blocks is said
of those that a line in some column leaves open.

* `Layout.BeforeLine`: a layout that comes to a line, or to the end of the text;
* `Layout.reads_key`: a key and its colon;
* `Layout.reads_leaf`: a value that is a word;
* `LaidValue.reads`, `LaidMembers.reads`: what stands behind a key, and all members of a mapping;
* `Laid.tokensOf_eq`: the tokens of a whole text.
-/
import MuxBridge.Proofs.Yaml.Gaps
import MuxBridge.Proofs.Yaml.Laid
import MuxBridge.Proofs.Yaml.Tokens

namespace MuxBridge.Yaml

/-! ## Tokens of trees -/

namespace Tree

mutual

/-- The tokens of a tree behind the colon of a key. -/
def blockTokens : Tree → List Token
  | .leaf w => [.scalar w .plain]
  | .node _ ms => .blockMappingStart :: (lineTokens ms ++ [.blockEnd])

/-- The tokens of the members of a mapping. -/
def lineTokens : List (String × Tree) → List Token
  | [] => []
  | (k, t) :: ms => .key :: .scalar k .plain :: .value :: (t.blockTokens ++ lineTokens ms)

end

end Tree

namespace Layout

/-! ## Lines -/

/-- Behind a gap, a layout stands at a cursor where a key may start; it is outside brackets. -/
structure AtLine (s : Layout) (c : Cursor) : Prop where
  gap : s.skipGap (s.cursor.rest.length + 1) = { s with cursor := c, keyAllowed := true }
  key : s.key = none
  outerKeys : s.outerKeys = []
  length_le : c.rest.length ≤ s.cursor.rest.length

/-- A layout comes to the text `rest` next, which stands in a column unless it is empty. -/
structure BeforeLine (s : Layout) (column : Nat) (rest : List Char) : Prop where
  leads : Leads s.cursor s.keyAllowed column rest
  key : s.key = none
  outerKeys : s.outerKeys = []

/-- In front of a text that is not empty, a key may start. -/
theorem BeforeLine.atLine {s : Layout} {column : Nat} {rest : List Char}
    (h : s.BeforeLine column rest) (hne : rest ≠ []) :
    ∃ c, s.AtLine c ∧ c.column = column ∧ c.rest = rest := by
  obtain ⟨c, allowed, hgap, hrest, hend⟩ := h.leads.skipGap_eq s rfl rfl h.outerKeys
    (s.cursor.rest.length + 1) (Nat.lt_succ_self _)
  obtain ⟨hcolumn, rfl⟩ := hend hne
  exact ⟨c, ⟨hgap, h.key, h.outerKeys, by rw [hrest]; exact h.leads.length_le⟩, hcolumn, hrest⟩

/-- A layout stands behind the colon of a key, to the right of the block that the key is in. -/
structure BehindColon (s : Layout) (bs : List Nat) (ts : List Token) (rest : List Char) :
    Prop where
  key : s.key = none
  outerKeys : s.outerKeys = []
  keyAllowed : s.keyAllowed = false
  blocks : s.blocks = bs
  tokens : s.tokens = ts
  rest : s.cursor.rest = rest
  right : ∀ b ∈ bs.head?, b < s.cursor.column

/-- What a key in a column does to the open blocks: its mapping goes on or opens there. -/
inductive Opens (column : Nat) (bs : List Nat) : List Nat → List Token → Prop
  | goesOn (h : bs.head? = some column) : Opens column bs bs []
  | opens (h : ∀ b ∈ bs.head?, b < column) :
    Opens column bs (column :: bs) [.blockMappingStart]

theorem Opens.head_le {column : Nat} {bs bs' : List Nat} {ts : List Token}
    (h : Opens column bs bs' ts) : ∀ b ∈ bs.head?, b ≤ column := by
  intro b hb
  cases h with
  | goesOn h =>
    rw [h] at hb
    exact (Option.some.inj hb).ge
  | opens h => exact (h b hb).le

theorem openBlock_of_lt {s : Layout} {column : Nat} (hflow : s.outerKeys = [])
    (h : ∀ b ∈ s.blocks.head?, b < column) (position : Nat) (t : Token) :
    s.openBlock column position t
      = { s.insert position t with blocks := column :: s.blocks } := by
  have hdeeper : s.indent < column := by
    unfold indent
    split
    · omega
    · next b _ hblocks => exact_mod_cast h b (by rw [hblocks]; rfl)
  simp [openBlock, inFlow, hflow, hdeeper]

theorem openBlock_of_head {s : Layout} {column : Nat} (h : s.blocks.head? = some column)
    (position : Nat) (t : Token) : s.openBlock column position t = s := by
  have hindent : s.indent = column := by
    unfold indent
    split
    · next hblocks =>
      rw [hblocks] at h
      cases h
    · next b _ hblocks =>
      rw [hblocks] at h
      rw [Option.some.inj h]
  simp [openBlock, hindent]

section Keys

variable {s : Layout} {c : Cursor} {k r : List Char} {bs bs' : List Nat} {ts ts' : List Token}

/-- Behind a word that is short enough, the place in front of it still may be a key. -/
theorem freshen_word (hk : ∀ x ∈ k, isLetter x = true) (hlen : k.length ≤ 1024)
    (hc : c.rest = k ++ r) {required : Bool} {position : Nat} :
    freshen (c.advance k.length) (some ⟨required, position, c.index, c.line, c.column⟩)
      = some (some ⟨required, position, c.index, c.line, c.column⟩) :=
  freshen_some (Nat.le_refl _)
    ((Cursor.advance_index_of_letters hk hc).le.trans (Nat.add_le_add_left hlen _))

/-- A word in front of a colon is read as a scalar that may be a key. -/
theorem next_key (hs : s.AtLine c) (hc : c.rest = k ++ ':' :: r)
    (hk : ∀ x ∈ k, isLetter x = true) (hne : k ≠ []) (hlen : k.length ≤ 1024)
    (hr : startsBlank r = true) (hclose : closeFrom c.column s.blocks s.tokens = (bs, ts)) :
    ∃ required, s.next = some ⟨c.advance k.length, ts ++ [.scalar (String.ofList k) .plain], bs,
      false, some ⟨required, ts.length, c.index, c.line, c.column⟩, []⟩ := by
  obtain ⟨x, w, hx⟩ := List.exists_cons_of_ne_nil hne
  have hstart : c.rest = x :: (w ++ ':' :: r) := by rw [hc, hx]; rfl
  have hletter : isLetter x = true := hk x (by rw [hx]; exact List.mem_cons_self)
  have hend : plainRun false (':' :: r) = some [] := by
    cases r with
    | nil => simp [plainRun.eq_def, isBlank, isBreak]
    | cons d r =>
      have hd : (isBlank d || isBreak d) = true := hr
      rw [plainRun.eq_def]
      simp [hd, show (isBlank ':' || isBreak ':') = false by decide]
  have hread : ∀ indent, readPlain false indent c = some ⟨k, false, c.advance k.length⟩ :=
    fun indent => readPlain_word hk hne hc indent hend (by simp [isBlank, isBreak])
  rw [next_of_gap hs.gap (freshenKeys_of_outerKeys_nil hs.outerKeys (by simp [hs.key, freshen]))]
  have hblocks : ({ s with cursor := c, keyAllowed := true } : Layout).closeBlocks c.column
      = ⟨c, ts, bs, true, none, []⟩ := by
    simp [closeBlocks, inFlow, hs.outerKeys, hclose, hs.key]
  -- a key in the column of an open block is required
  refine ⟨(indent ⟨c, ts, bs, true, none, []⟩ == c.column), ?_⟩
  rw [hblocks, readToken_of_letter (r := w ++ ':' :: r) hstart hletter]
  simp [plainScalar, noteKey, dropKey, inFlow, hread, accept, push, freshenKeys,
    freshen_word hk hlen hc]

/-- The colon behind a key marks the key, and opens the mapping if it is the first one there. -/
theorem next_colon (required : Bool) (us : List Token) (t : Token) (hc : c.rest = k ++ ':' :: r)
    (hk : ∀ x ∈ k, isLetter x = true) (hlen : k.length ≤ 1024) (hr : startsBlank r = true)
    (hopens : Opens c.column bs bs' ts') :
    next ⟨c.advance k.length, us ++ [t], bs, false,
        some ⟨required, us.length, c.index, c.line, c.column⟩, []⟩
      = some ⟨(c.advance k.length).advance 1, us ++ (ts' ++ [.key, t, .value]), bs', false, none,
        []⟩ := by
  have hrest : (c.advance k.length).rest = ':' :: r := Cursor.advance_rest_of_append hc
  -- the colon stands behind its key, so no block ends in front of it
  have hclose : closeFrom ((c.advance k.length).column : Nat) bs (us ++ [t]) = (bs, us ++ [t]) := by
    refine closeFrom_of_le ?_ _
    intro b hb
    have hle := hopens.head_le b hb
    rw [Cursor.advance_column]
    omega
  have hsolid : StartsSolid (c.advance k.length).rest := by
    rw [hrest]
    exact startsSolid_cons (by decide) r
  rw [next_of_gap (skipGap_of_startsSolid hsolid _)
    (freshenKeys_of_outerKeys_nil rfl (freshen_word hk hlen hc))]
  have hread : ∀ u : Layout, u.cursor.rest = ':' :: r → u.readToken = u.valueMark := by
    intro u hu
    rw [readToken, hu]
    simp [Cursor.atMarker, hu, hr]
  simp only [closeBlocks, inFlow, List.isEmpty_nil, Bool.not_true, Bool.false_eq_true, if_false,
    hclose]
  rw [hread _ hrest]
  have hmarked : insert ⟨c.advance k.length, us ++ [t], bs, false,
      some ⟨required, us.length, c.index, c.line, c.column⟩, []⟩ us.length .key
      = ⟨_, _, _, _, _, _⟩ := insert_of_append rfl .key
  simp only [valueMark, hmarked]
  -- the first key of a mapping opens the block, in front of the key
  cases hopens with
  | goesOn h =>
    rw [openBlock_of_head h]
    simp [accept, push, freshenKeys, freshen]
  | opens h =>
    rw [openBlock_of_lt rfl h, insert_of_append rfl]
    simp [accept, push, freshenKeys, freshen]

/-- A key and its colon are read, whatever follows them. -/
theorem reads_key {column : Nat} (hs : s.AtLine c) (hcolumn : c.column = column)
    (hc : c.rest = k ++ ':' :: r) (hk : ∀ x ∈ k, isLetter x = true) (hne : k ≠ [])
    (hlen : k.length ≤ 1024) (hr : startsBlank r = true)
    (hclose : closeFrom column s.blocks s.tokens = (bs, ts)) (hopens : Opens column bs bs' ts') :
    ∃ s', Reads s s' ∧ s'.BehindColon bs'
      (ts ++ (ts' ++ [.key, .scalar (String.ofList k) .plain, .value])) r := by
  subst hcolumn
  obtain ⟨required, hkey⟩ := next_key hs hc hk hne hlen hr hclose
  have hcolon := next_colon required ts (.scalar (String.ofList k) .plain) hc hk hlen hr hopens
  have hbehind : (c.advance k.length).rest = ':' :: r := Cursor.advance_rest_of_append hc
  have hrest : ((c.advance k.length).advance 1).rest = r := Cursor.advance_rest_of_cons hbehind
  refine ⟨_, .step hkey (by simp) ?_ (.step hcolon ?_ ?_ (.refl _)), ⟨rfl, rfl, rfl, rfl, rfl,
    hrest, ?_⟩⟩
  · have hle := hs.length_le
    have hpos := List.length_pos_iff.mpr hne
    rw [hc] at hle
    simp only [hbehind]
    simp only [List.length_append] at hle
    omega
  · simp
  · simp [hrest, hbehind]
  · intro b hb
    have hle : b ≤ c.column := by
      cases hopens with
      | goesOn h =>
        rw [h] at hb
        exact (Option.some.inj hb).ge
      | opens h => exact (Option.some.inj hb).ge
    simp only [Cursor.advance_column]
    omega

end Keys

/-! ## Values -/

section Values

variable {s : Layout} {b n : Nat} {bs : List Nat} {ts : List Token} {w r blanks cs : List Char}

/-- A value that is a word is read up to where the next line is led to. -/
theorem next_leaf (hw : ∀ x ∈ w, isLetter x = true) (hne : w ≠ [])
    (hs : s.BehindColon (b :: bs) ts (blanks ++ (w ++ cs)))
    (hblanks : ∀ x ∈ blanks, isBlank x = true) (hline : LineEnd n r cs) (hn : n ≤ b) :
    ∃ left c', s.next
        = some ⟨c', ts ++ [.scalar (String.ofList w) .plain], b :: bs, left, none, []⟩ ∧
      Leads c' left n r ∧ c'.rest.length ≤ cs.length := by
  obtain ⟨x, v, hv⟩ := List.exists_cons_of_ne_nil hne
  have hletter : isLetter x = true := hw x (by rw [hv]; exact List.mem_cons_self)
  have hword : (s.cursor.advance blanks.length).rest = w ++ cs :=
    Cursor.advance_rest_of_append hs.rest
  have hskips : ∀ x ∈ blanks, Skips s.keyAllowed x := hs.keyAllowed ▸ skips_blanks hblanks
  have hgap := skipGap_blanks hskips hs.rest (startsSolid_of_letters hw hne _) s.cursor.rest.length
  have hclose : closeFrom ((s.cursor.advance blanks.length).column : Nat) (b :: bs) ts
      = (b :: bs, ts) := by
    refine closeFrom_of_le ?_ _
    intro y hy
    have hright := hs.right y hy
    rw [Cursor.advance_column]
    omega
  obtain ⟨left, c', hread, hleads, hlength⟩ := readPlain_lastWord hw hne hword hline
    (Nat.lt_succ_of_le hn)
  refine ⟨left, c', ?_, hleads, hlength⟩
  rw [next_of_gap hgap (freshenKeys_of_outerKeys_nil hs.outerKeys (by simp [hs.key, freshen]))]
  have hblocks : ({ s with cursor := s.cursor.advance blanks.length } : Layout).closeBlocks
      (s.cursor.advance blanks.length).column
        = ⟨s.cursor.advance blanks.length, ts, b :: bs, false, none, []⟩ := by
    simp only [closeBlocks, inFlow, hs.outerKeys, List.isEmpty_nil, Bool.not_true,
      Bool.false_eq_true, if_false, hs.blocks, hs.tokens, hclose, hs.keyAllowed, hs.key]
  rw [hblocks, readToken_of_letter (r := v ++ cs) (by rw [hword, hv]; rfl) hletter]
  have htoNat : ((b : Int) + 1).toNat = b + 1 := by omega
  simp [plainScalar, noteKey, inFlow, indent, htoNat, hread, accept, push, freshenKeys, freshen]

/-- A value that is a word leads to the next line. -/
theorem reads_leaf (hw : ∀ x ∈ w, isLetter x = true) (hne : w ≠ [])
    (hs : s.BehindColon (b :: bs) ts (blanks ++ (w ++ cs)))
    (hblanks : ∀ x ∈ blanks, isBlank x = true) (hline : LineEnd n r cs) (hn : n ≤ b) :
    ∃ s', Reads s s' ∧ s'.BeforeLine n r ∧ s'.blocks = b :: bs ∧
      s'.tokens = ts ++ [.scalar (String.ofList w) .plain] := by
  obtain ⟨left, c', hnext, hleads, hlength⟩ := next_leaf hw hne hs hblanks hline hn
  refine ⟨_, .step hnext (by simp) ?_ (.refl _), ⟨hleads, rfl, rfl⟩, rfl, rfl⟩
  have hpos := List.length_pos_iff.mpr hne
  rw [hs.rest, List.length_append, List.length_append]
  exact Nat.lt_of_le_of_lt hlength (by omega)

/-- Behind a colon, the end of the line leads to the next one. -/
theorem BehindColon.beforeLine (hs : s.BehindColon bs ts cs) (hline : LineEnd n r cs) :
    s.BeforeLine n r := by
  have hleads : Leads s.cursor false n r := leads_of_lineEnd hline hs.rest
  exact ⟨hs.keyAllowed ▸ hleads, hs.key, hs.outerKeys⟩

end Values

/-- Reading on from a layout, one comes to the text `rest`, where the given blocks and tokens are
left once the blocks to the right of `m` are closed. -/
def ReadsLine (s : Layout) (m : Nat) (bs : List Nat) (ts : List Token) (column : Nat)
    (rest : List Char) : Prop :=
  ∃ s', Reads s s' ∧ s'.BeforeLine column rest ∧ closeFrom m s'.blocks s'.tokens = (bs, ts)

end Layout

/-! ## Trees -/

open Layout

mutual

/-- Whatever stands behind the colon of a key is read up to the next line. -/
theorem LaidValue.reads {column n : Nat} {t : Tree} {r cs : List Char} :
    LaidValue column t n r cs → ∀ {s : Layout} {bs : List Nat} {ts : List Token},
      s.BehindColon (column :: bs) ts cs → n ≤ column →
        s.ReadsLine column (column :: bs) (ts ++ t.blockTokens) n r
  | .leaf hw hblanks _ hline, s, bs, ts, hs, hn => by
    obtain ⟨s', hreads, hbefore, hblocks, htokens⟩ :=
      reads_leaf hw.letters hw.ne_nil hs hblanks hline hn
    refine ⟨s', hreads, hbefore, ?_⟩
    rw [hblocks, htokens, closeFrom_of_le (by simp), String.ofList_toList]
    rfl
  | @LaidValue.node _ step _ _ _ _ _ hstep hline hmembers, s, bs, ts, hs, hn => by
    -- the members stand to the right of the column, so their block opens
    obtain ⟨c, hline, hcolumn, hrest⟩ := (hs.beforeLine hline).atLine hmembers.ne_nil
    have hopens : Opens (column + step) (column :: bs) ((column + step) :: column :: bs)
        [.blockMappingStart] := .opens (by simp; omega)
    have hright : (column : Int) ≤ (column + step : Nat) := by omega
    have hclose : closeFrom (column + step : Nat) s.blocks s.tokens = (column :: bs, ts) := by
      rw [hs.blocks, hs.tokens, closeFrom_of_le]
      rintro b ⟨⟩
      exact hright
    obtain ⟨s', hreads, hbefore, hclose'⟩ := hmembers.reads hline hcolumn hclose hopens hrest
      (Nat.le_add_right_of_le hn)
    refine ⟨s', hreads, hbefore, ?_⟩
    -- and it is closed again where the column goes on
    rw [closeFrom_trans hright, hclose', closeFrom,
      if_pos (by simp; omega), closeFrom_of_le (by simp)]
    simp [Tree.blockTokens]

/-- The members of a mapping are read line by line, once the indentation of the first is. -/
theorem LaidMembers.reads {column n : Nat} {ms : List (String × Tree)} {r cs : List Char} :
    LaidMembers column ms n r cs → ∀ {s : Layout} {c : Cursor} {bs bs' : List Nat}
      {ts ts' : List Token}, s.AtLine c → c.column = column →
        closeFrom column s.blocks s.tokens = (bs, ts) → Opens column bs (column :: bs') ts' →
          c.rest = cs → n ≤ column →
            s.ReadsLine column (column :: bs') (ts ++ (ts' ++ Tree.lineTokens ms)) n r
  | .last hk hvalue, s, c, bs, bs', ts, ts', hs, hcolumn, hclose, hopens, hc, hn => by
    obtain ⟨s₁, hkey, hcolon⟩ := reads_key hs hcolumn hc hk.letters hk.ne_nil hk.length_le
      hvalue.startsBlank hclose hopens
    obtain ⟨s₂, hreads, hline⟩ := hvalue.reads hcolon hn
    refine ⟨s₂, hkey.trans hreads, ?_⟩
    simpa [Tree.lineTokens] using hline
  | .more hk hvalue hmembers, s, c, bs, bs', ts, ts', hs, hcolumn, hclose, hopens, hc, hn => by
    obtain ⟨s₁, hkey, hcolon⟩ := reads_key hs hcolumn hc hk.letters hk.ne_nil hk.length_le
      hvalue.startsBlank hclose hopens
    -- the next line stands in the same column, so the mapping goes on
    obtain ⟨s₂, hreads, hbefore, hclose₂⟩ := hvalue.reads hcolon (Nat.le_refl _)
    obtain ⟨c₂, hline₂, hcolumn₂, hrest₂⟩ := hbefore.atLine hmembers.ne_nil
    obtain ⟨s₃, hothers, hline⟩ := hmembers.reads hline₂ hcolumn₂ hclose₂ (.goesOn rfl) hrest₂ hn
    refine ⟨s₃, (hkey.trans hreads).trans hothers, ?_⟩
    simpa [Tree.lineTokens] using hline

end

/-! ## Whole texts -/

/-- In front of nothing, the open blocks are closed and the stream ends. -/
theorem next_end {s : Layout} {m n : Nat} {ts : List Token} (hs : s.BeforeLine n [])
    (hclose : closeFrom m s.blocks s.tokens = ([m], ts)) :
    ∃ t, s.next = some t ∧ t.tokens = ts ++ [.blockEnd, .streamEnd] := by
  obtain ⟨c, allowed, hgap, hrest, -⟩ := hs.leads.skipGap_eq s rfl rfl hs.outerKeys
    (s.cursor.rest.length + 1) (Nat.lt_succ_self _)
  -- whatever is closed in the column of the end, all blocks are closed behind it
  have hall : closeFrom (-1) (closeFrom c.column s.blocks s.tokens).1
      (closeFrom c.column s.blocks s.tokens).2 = ([], ts ++ [.blockEnd]) := by
    rw [← closeFrom_trans (by omega), closeFrom_trans (n := m) (by omega), hclose, closeFrom,
      if_pos (by omega)]
    rfl
  rw [next_of_gap hgap (freshenKeys_of_outerKeys_nil hs.outerKeys (by simp [hs.key, freshen]))]
  have hfirst : ({ s with cursor := c, keyAllowed := allowed } : Layout).closeBlocks c.column
      = ⟨c, (closeFrom c.column s.blocks s.tokens).2, (closeFrom c.column s.blocks s.tokens).1,
        allowed, none, []⟩ := by
    simp [closeBlocks, inFlow, hs.outerKeys, hs.key]
  rw [hfirst, readToken]
  simp [hrest, finish, closeBlocks, inFlow, hall, dropKey, push, freshenKeys, freshen]

/-- The tokens of a mapping in lines. -/
theorem Laid.tokensOf_eq {ms : List (String × Tree)} {text : List Char} (h : Laid ms text) :
    tokensOf text = .blockMappingStart :: (Tree.lineTokens ms ++ [.blockEnd, .streamEnd]) := by
  have hallowed := h.isAllowed_of_mem
  obtain ⟨hstart, hmembers⟩ := h
  have hbefore : (Layout.start text).BeforeLine _ _ :=
    ⟨leads_of_lineStart hstart (Cursor.start text) rfl rfl, rfl, rfl⟩
  obtain ⟨c, hline, hcolumn, hrest⟩ := hbefore.atLine hmembers.ne_nil
  obtain ⟨s, hreads, hend, hclose⟩ := hmembers.reads hline hcolumn rfl (.opens (by simp)) hrest
    (Nat.zero_le _)
  obtain ⟨u, hnext, htokens⟩ := next_end hend hclose
  have hlast : u.tokens.getLast? = some .streamEnd := by
    rw [htokens, List.getLast?_append]
    rfl
  rw [hreads.tokensOf_eq hallowed hnext hlast, htokens]
  simp [Layout.start]

end MuxBridge.Yaml
