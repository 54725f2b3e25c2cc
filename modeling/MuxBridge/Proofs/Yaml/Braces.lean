/-
# Mappings in braces

The tokens of a tree that is written in braces with quoted keys. No block opens or closes there, and
a gap between tokens is never needed. What a brace leaves behind is a place where the whole mapping
could have been a key; such places are dropped as they become stale, which no token notices.

* `Layout.Within`: a layout inside braces;
* `Layout.Within.reads`: one token inside braces;
* `Layout.Within.reads_key`: a quoted key and its colon;
* `Tree.reads_flow`: a tree inside braces;
* `Tree.tokensOf_flow`: the tokens of a whole text.
-/
import MuxBridge.Proofs.Yaml.Gaps
import MuxBridge.Proofs.Yaml.Tokens
import MuxBridge.Proofs.Yaml.Tree

namespace MuxBridge.Yaml

/-! ## Tokens of trees -/

namespace Tree

mutual

/-- The tokens of a tree in braces. -/
def flowTokens : Tree → List Token
  | .leaf w => [.scalar w .plain]
  | .node _ ms => .flowMappingStart :: (flowMemberTokens ms ++ [.flowMappingEnd])

/-- The tokens of the members of a mapping, commas between them. -/
def flowMemberTokens : List (String × Tree) → List Token
  | [] => []
  | [(k, t)] => .key :: .scalar k .doubleQuoted :: .value :: t.flowTokens
  | (k, t) :: m :: ms =>
    .key :: .scalar k .doubleQuoted :: .value ::
      (t.flowTokens ++ .flowEntry :: flowMemberTokens (m :: ms))

end

end Tree

namespace Layout

/-! ## Possible keys around braces -/

/-- A possible key that is not required. -/
def Loose (k : Option KeyPlace) : Prop := ∀ p ∈ k, p.required = false

/-- Such a key may be dropped. -/
theorem Loose.freshen {k : Option KeyPlace} (h : Loose k) (c : Cursor) :
    ∃ k', Loose k' ∧ Layout.freshen c k = some k' := by
  cases k with
  | none => exact ⟨none, h, rfl⟩
  | some p =>
    have hp : p.required = false := h p rfl
    by_cases hstale : isStale c p = true
    · exact ⟨none, by simp [Loose], by simp [Layout.freshen, hstale, hp]⟩
    · exact ⟨some p, h, by simp [Layout.freshen, hstale]⟩

theorem Loose.freshenKeys {s : Layout} (h : Loose s.key) (hflow : s.outerKeys = []) :
    ∃ k, Loose k ∧ s.freshenKeys = some { s with key := k } := by
  obtain ⟨k, hk, hfresh⟩ := h.freshen s.cursor
  exact ⟨k, hk, by simp [Layout.freshenKeys, hflow, hfresh]⟩

theorem Loose.dropKey {s : Layout} (h : Loose s.key) : s.dropKey = some { s with key := none } := by
  unfold Layout.dropKey
  split
  · next p hp =>
    rw [if_neg (by simp [h p (by rw [hp]; rfl)])]
  · next hp => rw [← hp]

theorem mapM_freshen_none (c : Cursor) (n : Nat) :
    (List.replicate n none).mapM (freshen c) = some (List.replicate n none) := by
  induction n with
  | zero => rfl
  | succ n ih => simp [List.replicate_succ, ih, freshen]

/-! ## Inside braces -/

/-- A layout inside braces, where only the outermost brace may be in the place of a key. -/
structure Within (s : Layout) (place : Option KeyPlace) (depth : Nat) (allowed : Bool)
    (ts : List Token) (rest : List Char) : Prop where
  key : s.key = place
  fresh : freshen s.cursor place = some place
  outerKeys : ∃ k, Loose k ∧ s.outerKeys = List.replicate depth none ++ [k]
  keyAllowed : s.keyAllowed = allowed
  blocks : s.blocks = []
  tokens : s.tokens = ts
  rest : s.cursor.rest = rest

namespace Within

variable {s : Layout} {place place' : Option KeyPlace} {depth depth' : Nat}
  {allowed allowed' : Bool} {ts ts' : List Token} {t : Token} {x : Char} {r r' : List Char}

theorem inFlow (hs : s.Within place depth allowed ts r) : s.inFlow = true := by
  obtain ⟨k, -, hk⟩ := hs.outerKeys
  simp [Layout.inFlow, hk]

/-- Dropping stale keys leaves a layout inside braces. -/
theorem exists_freshenKeys (hs : s.Within place depth allowed ts r) :
    ∃ s', s.freshenKeys = some s' ∧ s'.Within place depth allowed ts r ∧ s'.cursor = s.cursor := by
  obtain ⟨k, hk, houter⟩ := hs.outerKeys
  obtain ⟨k', hk', hfresh⟩ := hk.freshen s.cursor
  refine ⟨{ s with key := place, outerKeys := List.replicate depth none ++ [k'] }, ?_,
    ⟨rfl, hs.fresh, ⟨k', hk', rfl⟩, hs.keyAllowed, hs.blocks, hs.tokens, hs.rest⟩, rfl⟩
  simp [freshenKeys, houter, mapM_freshen_none, hfresh, hs.key, hs.fresh]

/-- The next token inside braces is the one at the cursor. -/
theorem exists_next (hs : s.Within place depth allowed ts (x :: r)) (hx : isSolid x = true) :
    ∃ s' : Layout, s'.Within place depth allowed ts (x :: r) ∧ s'.cursor = s.cursor ∧
      s.next = s'.readToken.bind freshenKeys := by
  obtain ⟨s', hfresh, hs', hcursor⟩ := hs.exists_freshenKeys
  have hsolid : StartsSolid s.cursor.rest := by
    rw [hs.rest]
    exact startsSolid_cons hx r
  -- inside braces no column matters
  have hclose : s'.closeBlocks s'.cursor.column = s' := by
    rw [closeBlocks, hs'.inFlow]
    rfl
  refine ⟨s', hs', hcursor, ?_⟩
  simp only [next, skipGap_of_startsSolid hsolid, hfresh, Option.bind_eq_bind, Option.bind_some,
    hclose]

/-- A token is read inside braces if it is read wherever it stands there. -/
theorem reads (hs : s.Within place depth allowed ts (x :: r)) (hx : isSolid x = true)
    (hread : ∀ s' : Layout, s'.Within place depth allowed ts (x :: r) → s'.cursor = s.cursor →
      ∃ u, s'.readToken = some u ∧ u.Within place' depth' allowed' ts' r')
    (hlast : ts'.getLast? ≠ some .streamEnd) (hlen : r'.length ≤ r.length) :
    ∃ s', s.Reads s' ∧ s'.Within place' depth' allowed' ts' r' := by
  obtain ⟨s', hs', hcursor, hnext⟩ := hs.exists_next hx
  obtain ⟨u, htoken, hu⟩ := hread s' hs' hcursor
  obtain ⟨v, hfresh, hv, -⟩ := hu.exists_freshenKeys
  refine ⟨v, .step ?_ (by rw [hv.tokens]; exact hlast) ?_ (.refl v), hv⟩
  · rw [hnext, htoken]
    exact hfresh
  · rw [hv.rest, hs.rest, List.length_cons]
    exact Nat.lt_succ_of_le hlen

/-- No key is noted where none may start. -/
theorem noteKey_eq (hs : s.Within place depth false ts r) : s.noteKey = some s := by
  simp [noteKey, hs.keyAllowed]

theorem dropKey_eq (hs : s.Within none depth allowed ts r) : s.dropKey = some s := by
  simp [dropKey, hs.key]

/-! ## Marks -/

/-- An opening brace behind a colon. -/
theorem reads_open (hs : s.Within none depth false ts ('\x7b' :: r)) :
    ∃ s', s.Reads s' ∧ s'.Within none (depth + 1) true (ts ++ [.flowMappingStart]) r := by
  refine hs.reads (by decide) ?_ (by simp) (Nat.le_refl _)
  intro s' hs' _
  obtain ⟨k, hk, houter⟩ := hs'.outerKeys
  have htoken : s'.readToken = s'.openBracket .flowMappingStart := by
    simp [readToken, hs'.rest, Cursor.atMarker]
  rw [htoken]
  simp only [openBracket, hs'.noteKey_eq, Option.bind_eq_bind, Option.bind_some]
  refine ⟨_, rfl, ⟨rfl, rfl, ⟨k, hk, ?_⟩, rfl, hs'.blocks, ?_,
    Cursor.advance_rest_of_cons hs'.rest⟩⟩
  · simp [accept, push, houter, hs'.key, List.replicate_succ]
  · simp [accept, push, hs'.tokens]

/-- A closing brace. -/
theorem reads_close (hs : s.Within none (depth + 1) allowed ts ('\x7d' :: r)) :
    ∃ s', s.Reads s' ∧ s'.Within none depth false (ts ++ [.flowMappingEnd]) r := by
  refine hs.reads (by decide) ?_ (by simp) (Nat.le_refl _)
  intro s' hs' _
  obtain ⟨k, hk, houter⟩ := hs'.outerKeys
  have htoken : s'.readToken = s'.closeBracket .flowMappingEnd := by
    simp [readToken, hs'.rest, Cursor.atMarker]
  rw [List.replicate_succ, List.cons_append] at houter
  rw [htoken]
  simp only [closeBracket, hs'.dropKey_eq, houter, Option.bind_eq_bind, Option.bind_some]
  refine ⟨_, rfl, ⟨rfl, rfl, ⟨k, hk, rfl⟩, rfl, hs'.blocks, ?_,
    Cursor.advance_rest_of_cons hs'.rest⟩⟩
  simp [accept, push, hs'.tokens]

/-- A comma. -/
theorem reads_comma (hs : s.Within none depth allowed ts (',' :: r)) :
    ∃ s', s.Reads s' ∧ s'.Within none depth true (ts ++ [.flowEntry]) r := by
  refine hs.reads (by decide) ?_ (by simp) (Nat.le_refl _)
  intro s' hs' _
  have htoken : s'.readToken = s'.separator .flowEntry true := by
    simp [readToken, hs'.rest, Cursor.atMarker]
  rw [htoken]
  simp only [separator, hs'.dropKey_eq, Option.bind_eq_bind, Option.bind_some]
  refine ⟨_, rfl, ⟨hs'.key, rfl, hs'.outerKeys, rfl, hs'.blocks, ?_,
    Cursor.advance_rest_of_cons hs'.rest⟩⟩
  simp [accept, push, hs'.tokens]

/-! ## Keys and values -/

/-- The colon behind a key marks the key. -/
theorem reads_colon {p : KeyPlace} (hp : p.position = ts.length)
    (hs : s.Within (some p) depth false (ts ++ [t]) (':' :: r)) :
    ∃ s', s.Reads s' ∧ s'.Within none depth false (ts ++ [.key, t, .value]) r := by
  refine hs.reads (by decide) ?_ (by simp) (Nat.le_refl _)
  intro s' hs' _
  have hflow := hs'.inFlow
  have htoken : s'.readToken = s'.valueMark := by
    simp [readToken, hs'.rest, Cursor.atMarker, hflow]
  have hinsert : s'.insert p.position .key
      = ⟨s'.cursor, ts ++ [.key, t], s'.blocks, s'.keyAllowed, some p, s'.outerKeys⟩ := by
    rw [hp, insert_of_append hs'.tokens, hs'.key]
  have hopen : openBlock ⟨s'.cursor, ts ++ [.key, t], s'.blocks, s'.keyAllowed, some p,
      s'.outerKeys⟩ p.column p.position .blockMappingStart
      = ⟨s'.cursor, ts ++ [.key, t], s'.blocks, s'.keyAllowed, some p, s'.outerKeys⟩ := by
    have hflow' : (!s'.outerKeys.isEmpty) = true := hflow
    simp [openBlock, Layout.inFlow, hflow']
  simp only [htoken, valueMark, hs'.key, hinsert, hopen]
  refine ⟨_, rfl, ⟨rfl, rfl, hs'.outerKeys, rfl, hs'.blocks, ?_,
    Cursor.advance_rest_of_cons hs'.rest⟩⟩
  simp [accept, push]

section Words

variable {w : List Char} (hw : ∀ c ∈ w, isLetter c = true)

include hw

/-- A quoted word is noted as a possible key. -/
theorem reads_quoted (hlen : w.length ≤ 1022)
    (hs : s.Within none depth true ts ('"' :: (w ++ '"' :: r))) :
    ∃ p s', p.position = ts.length ∧ s.Reads s' ∧ s'.Within (some p) depth false
      (ts ++ [.scalar (String.ofList w) .doubleQuoted]) r := by
  refine ⟨⟨false, ts.length, s.cursor.index, s.cursor.line, s.cursor.column⟩, ?_⟩
  refine (hs.reads (by decide) ?_ (by simp) ?_).imp fun s' hs' => ⟨rfl, hs'⟩
  · intro s' hs' hcursor
    have htoken : s'.readToken = s'.quotedScalar false := by
      simp [readToken, hs'.rest, Cursor.atMarker, apostrophe]
    have hread := readQuoted_word hw hs'.rest
    have hrest : (s'.cursor.advance (w.length + 2)).rest = r := by
      simp [Cursor.advance, hs'.rest]
    have hindex : (s'.cursor.advance (w.length + 2)).index = s'.cursor.index + (w.length + 2) :=
      Cursor.advance_index_of_quoted hw hs'.rest
    simp only [htoken, quotedScalar, nodeToken, noteKey, hs'.keyAllowed, hs'.dropKey_eq, hs'.inFlow,
      if_true, Option.bind_eq_bind, Option.pure_def, Option.bind_some, hread, Bool.not_true,
      Bool.false_and]
    refine ⟨_, rfl, ⟨?_, ?_, hs'.outerKeys, rfl, hs'.blocks, ?_, hrest⟩⟩
    · simp [accept, push, hs'.tokens, hcursor]
    · refine freshen_some (Nat.le_of_eq ?_) ?_
      · simp [accept, hcursor]
      · simp only [accept, hindex, ← hcursor]
        omega
    · simp [accept, push, hs'.tokens]
  · simp
    omega

/-- A plain word in front of a comma or a closing brace. -/
theorem reads_word (hne : w ≠ []) (hx : x = ',' ∨ x = '\x7d')
    (hs : s.Within none depth false ts (w ++ x :: r)) :
    ∃ s', s.Reads s' ∧
      s'.Within none depth false (ts ++ [.scalar (String.ofList w) .plain]) (x :: r) := by
  obtain ⟨y, v, rfl⟩ := List.exists_cons_of_ne_nil hne
  have hy : isLetter y = true := hw y List.mem_cons_self
  refine hs.reads (isSolid_of_isLetter hy) ?_ (by simp) (by simp)
  intro s' hs' _
  have hend : plainRun true (x :: r) = some [] := by
    rcases hx with rfl | rfl <;> simp [plainRun.eq_def, isBlank, isBreak, isFlowMark]
  have hmark : ∀ y ∈ (x :: r).head?, (isBlank y || isBreak y) = false := by
    rcases hx with rfl | rfl <;> simp [isBlank, isBreak]
  have hread := readPlain_word hw hne hs'.rest (s'.indent + 1).toNat hend hmark
  rw [readToken_of_letter hs'.rest hy]
  simp only [plainScalar, hs'.noteKey_eq, hs'.inFlow, Option.bind_eq_bind, Option.bind_some, hread]
  refine ⟨_, rfl, ⟨hs'.key, rfl, hs'.outerKeys, rfl, hs'.blocks, ?_,
    Cursor.advance_rest_of_append hs'.rest⟩⟩
  simp [accept, push, hs'.tokens]

end Words

/-- A quoted key and its colon. -/
theorem reads_key {w : List Char} (hw : ∀ c ∈ w, isLetter c = true) (hlen : w.length ≤ 1022)
    (hs : s.Within none depth true ts ('"' :: (w ++ '"' :: ':' :: r))) :
    ∃ s', s.Reads s' ∧ s'.Within none depth false
      (ts ++ [.key, .scalar (String.ofList w) .doubleQuoted, .value]) r := by
  obtain ⟨p, s₁, hp, hquoted, hs₁⟩ := hs.reads_quoted hw hlen
  obtain ⟨s₂, hcolon, hs₂⟩ := hs₁.reads_colon hp
  exact ⟨s₂, hquoted.trans hcolon, hs₂⟩

end Within

end Layout

/-! ## Trees -/

namespace Tree

open Layout

/-- What every tree is to do inside braces, in front of a comma or a closing brace. -/
def ReadsFlow (t : Tree) : Prop :=
  ∀ (s : Layout) (depth : Nat) (ts : List Token) (x : Char) (r : List Char),
    x = ',' ∨ x = '\x7d' → s.Within none depth false ts (t.flow ++ x :: r) →
      ∃ s', s.Reads s' ∧ s'.Within none depth false (ts ++ t.flowTokens) (x :: r)

/-- The members of a mapping are read one after the other. -/
theorem reads_flowMembers {ms : List (String × Tree)} (hkeys : ∀ m ∈ ms, IsKey 1022 m.1)
    (hreads : ∀ m ∈ ms, m.2.ReadsFlow) {s : Layout} {depth : Nat} {ts : List Token} {r : List Char}
    (hs : s.Within none depth true ts (flowMembers ms ++ '\x7d' :: r)) :
    ∃ s' allowed, s.Reads s' ∧
      s'.Within none depth allowed (ts ++ flowMemberTokens ms) ('\x7d' :: r) := by
  induction ms generalizing s ts with
  | nil => exact ⟨s, true, .refl s, by simpa [flowMembers, flowMemberTokens] using hs⟩
  | cons m ms ih =>
    obtain ⟨k, t⟩ := m
    rw [List.forall_mem_cons] at hkeys hreads
    -- the last member is followed by the brace, every other one by a comma
    cases ms with
    | nil =>
      have htext : flowMembers [(k, t)] ++ '\x7d' :: r
          = '"' :: (k.toList ++ '"' :: ':' :: (t.flow ++ '\x7d' :: r)) := by simp [flowMembers]
      rw [htext] at hs
      obtain ⟨s₁, hkey, hs₁⟩ := hs.reads_key hkeys.1.letters hkeys.1.length_le
      obtain ⟨s₂, hvalue, hs₂⟩ := hreads.1 s₁ depth _ _ _ (.inr rfl) hs₁
      refine ⟨s₂, false, hkey.trans hvalue, ?_⟩
      simpa [flowMemberTokens] using hs₂
    | cons m ms =>
      have htext : flowMembers ((k, t) :: m :: ms) ++ '\x7d' :: r
          = '"' :: (k.toList ++ '"' :: ':' ::
            (t.flow ++ ',' :: (flowMembers (m :: ms) ++ '\x7d' :: r))) := by simp [flowMembers]
      rw [htext] at hs
      obtain ⟨s₁, hkey, hs₁⟩ := hs.reads_key hkeys.1.letters hkeys.1.length_le
      obtain ⟨s₂, hvalue, hs₂⟩ := hreads.1 s₁ depth _ _ _ (.inl rfl) hs₁
      obtain ⟨s₃, hcomma, hs₃⟩ := hs₂.reads_comma
      obtain ⟨s₄, allowed, hothers, hs₄⟩ := ih hkeys.2 hreads.2 hs₃
      refine ⟨s₄, allowed, ((hkey.trans hvalue).trans hcomma).trans hothers, ?_⟩
      simpa [flowMemberTokens] using hs₄

/-- Inside braces every tidy tree is read. -/
theorem reads_flow {t : Tree} (ht : t.Tidy 1022) : t.ReadsFlow := by
  induction ht with
  | leaf hw =>
    intro s depth ts x r hx hs
    obtain ⟨s', hreads, hs'⟩ := hs.reads_word hw.letters hw.ne_nil hx
    rw [String.ofList_toList] at hs'
    exact ⟨s', hreads, hs'⟩
  | node _ _ hkeys _ ih =>
    intro s depth ts x r _ hs
    rw [flow, List.cons_append, List.append_assoc, List.singleton_append] at hs
    obtain ⟨s₁, hopen, hs₁⟩ := hs.reads_open
    obtain ⟨s₂, allowed, hmembers, hs₂⟩ := reads_flowMembers hkeys ih hs₁
    obtain ⟨s₃, hclose, hs₃⟩ := hs₂.reads_close
    refine ⟨s₃, (hopen.trans hmembers).trans hclose, ?_⟩
    simpa [flowTokens] using hs₃

/-! ## Whole texts -/

/-- A text in braces starts outside of them. -/
theorem reads_first (r : List Char) : ∃ s, (Layout.start ('\x7b' :: r)).Reads s ∧
    s.Within none 0 true [.flowMappingStart] r := by
  have hgap : (Layout.start ('\x7b' :: r)).skipGap (('\x7b' :: r).length + 1)
      = Layout.start ('\x7b' :: r) :=
    skipGap_of_startsSolid (startsSolid_cons (by decide) r) _
  have hopen : (Layout.start ('\x7b' :: r)).readToken
      = some ⟨(Cursor.start ('\x7b' :: r)).advance 1, [.flowMappingStart], [], true, none,
        [some ⟨false, 0, 0, 0, 0⟩]⟩ := by
    simp [Layout.start, inFlow, readToken, Cursor.start, Cursor.atMarker, openBracket, noteKey,
      dropKey, indent, accept, push]
  have hwithin : Within ⟨(Cursor.start ('\x7b' :: r)).advance 1, [.flowMappingStart], [], true,
      none, [some ⟨false, 0, 0, 0, 0⟩]⟩ none 0 true [.flowMappingStart] r :=
    ⟨rfl, rfl, ⟨_, by simp [Loose], rfl⟩, rfl, rfl, rfl, Cursor.advance_rest_of_cons rfl⟩
  obtain ⟨s, hfresh, hs, -⟩ := hwithin.exists_freshenKeys
  refine ⟨s, .step ?_ (by simp [hs.tokens]) ?_ (.refl s), hs⟩
  · rw [next_of_gap hgap (freshenKeys_of_outerKeys_nil rfl rfl)]
    exact (congrArg (Option.bind · Layout.freshenKeys) hopen).trans hfresh
  · rw [hs.rest]
    exact Nat.lt_succ_self _

/-- In front of nothing the stream ends, where no block is open. -/
theorem next_of_rest_nil {c : Cursor} {k : Option KeyPlace} (hrest : c.rest = []) (hk : Loose k)
    (ts : List Token) (allowed : Bool) :
    ∃ u, next ⟨c, ts, [], allowed, k, []⟩ = some u ∧ u.tokens = ts ++ [.streamEnd] := by
  obtain ⟨k', hk', hfresh⟩ := Loose.freshenKeys (s := ⟨c, ts, [], allowed, k, []⟩) hk rfl
  have hgap := skipGap_of_startsSolid (s := ⟨c, ts, [], allowed, k, []⟩)
    (by simp [StartsSolid, hrest]) c.rest.length
  have hclose : ∀ (column : Int) (c : Cursor), closeBlocks ⟨c, ts, [], allowed, k', []⟩ column
      = ⟨c, ts, [], allowed, k', []⟩ := fun _ _ => rfl
  -- the stream ends at the start of a line, which may have to be made up
  have hfinish : ∃ c', readToken ⟨c, ts, [], allowed, k', []⟩
      = some ⟨c', ts ++ [.streamEnd], [], false, none, []⟩ := by
    refine ⟨if c.column = 0 then c else c.newLine 0, ?_⟩
    have hdrop := Loose.dropKey (s := ⟨if c.column = 0 then c else c.newLine 0, ts, [], allowed, k',
      []⟩) hk'
    simp only [readToken, hrest, finish, hclose, hdrop]
    rfl
  obtain ⟨c', hfinish⟩ := hfinish
  refine ⟨⟨c', ts ++ [.streamEnd], [], false, none, []⟩, ?_, rfl⟩
  simp only [next, hgap, hfresh, Option.bind_eq_bind, Option.bind_some, hclose, hfinish]
  exact freshenKeys_of_outerKeys_nil rfl rfl

/-- Behind the outermost brace the stream ends. -/
theorem reads_last {s : Layout} {allowed : Bool} {ts : List Token}
    (hs : s.Within none 0 allowed ts ['\x7d']) : ∃ s' u, s.Reads s' ∧ s'.next = some u ∧
      u.tokens = ts ++ [.flowMappingEnd, .streamEnd] := by
  obtain ⟨s₁, hs₁, -, hnext⟩ := hs.exists_next (by decide)
  obtain ⟨k, hk, houter⟩ := hs₁.outerKeys
  -- the brace ends what may have been a key
  have hclose : s₁.readToken = some ⟨s₁.cursor.advance 1, ts ++ [.flowMappingEnd], [], false, k,
      []⟩ := by
    have htoken : s₁.readToken = s₁.closeBracket .flowMappingEnd := by
      simp [readToken, hs₁.rest, Cursor.atMarker]
    rw [htoken]
    simp [closeBracket, hs₁.dropKey_eq, houter, accept, push, hs₁.tokens, hs₁.blocks]
  obtain ⟨k₁, hk₁, hfresh₁⟩ := Loose.freshenKeys (s := ⟨s₁.cursor.advance 1,
    ts ++ [.flowMappingEnd], [], false, k, []⟩) hk rfl
  have hrest : (s₁.cursor.advance 1).rest = [] := Cursor.advance_rest_of_cons hs₁.rest
  obtain ⟨u, hend, htokens⟩ := next_of_rest_nil hrest hk₁ (ts ++ [.flowMappingEnd]) false
  refine ⟨_, u, .step (hnext.trans ?_) ?_ ?_ (.refl _), hend, by simp [htokens]⟩
  · rw [hclose]
    exact hfresh₁
  · simp
  · simp [hrest, hs.rest]

/-- The tokens of a mapping in braces. -/
theorem tokensOf_flow {step : Nat} {ms : List (String × Tree)} (h : (node step ms).Tidy 1022) :
    tokensOf (node step ms).flow = (node step ms).flowTokens ++ [.streamEnd] := by
  have hallowed := isAllowed_of_mem_flow h
  cases h with
  | node _ _ hkeys htidy =>
    obtain ⟨s₁, hfirst, hs₁⟩ := reads_first (flowMembers ms ++ ['\x7d'])
    obtain ⟨s₂, allowed, hmembers, hs₂⟩ :=
      reads_flowMembers hkeys (fun m hm => reads_flow (htidy m hm)) hs₁
    obtain ⟨s₃, u, hlast, hnext, htokens⟩ := reads_last hs₂
    have hend : u.tokens.getLast? = some .streamEnd := by
      rw [htokens, List.getLast?_append]
      rfl
    rw [((hfirst.trans hmembers).trans hlast).tokensOf_eq hallowed hnext hend, htokens]
    simp [flowTokens]

end Tree

end MuxBridge.Yaml
