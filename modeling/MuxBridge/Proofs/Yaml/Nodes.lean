/-
# The nodes of a tree

Whichever way a tree is written, its tokens make the same document: a leaf is one scalar, and a
mapping has its members between a start and an end. Every step of reading tokens reaches one goal
and takes up a token, so the steps that a list of tokens is given are enough.

* `Progress.Leads`: reading tokens leads from one state to another;
* `Tree.leads_block`, `Tree.leads_flow`: the events of a tree from either of its lists of tokens;
* `Tree.ofText_lines`, `Tree.ofText_flow`: the document of a whole text.
-/
import MuxBridge.Proofs.Yaml.Braces
import MuxBridge.Proofs.Yaml.Lines
import MuxBridge.Yaml.Document

namespace MuxBridge.Yaml

/-! ## Events and nodes of trees -/

namespace Tree

mutual

/-- The events of a tree whose keys are written in some style. -/
def events (style : Style) : Tree → List Event
  | .leaf w => [.scalar .none w .plain]
  | .node _ ms => .mappingStart .none :: (memberEvents style ms ++ [.mappingEnd])

/-- The events of the members of a mapping. -/
def memberEvents (style : Style) : List (String × Tree) → List Event
  | [] => []
  | (k, t) :: ms => .scalar .none k style :: (t.events style ++ memberEvents style ms)

end

mutual

/-- The nodes of a tree whose keys are written in some style. -/
def nodes (style : Style) : Tree → List Node
  | .leaf w => [.scalar none w .plain]
  | .node _ ms => .mappingStart :: (memberNodes style ms ++ [.mappingEnd])

/-- The nodes of the members of a mapping. -/
def memberNodes (style : Style) : List (String × Tree) → List Node
  | [] => []
  | (k, t) :: ms => .scalar none k style :: (t.nodes style ++ memberNodes style ms)

end

end Tree

/-! ## Runs -/

namespace Progress

/-- Reading tokens leads from one state to another, and every step takes up a token. -/
inductive Leads : Progress → Progress → Prop
  | refl (p : Progress) : Leads p p
  | step {p q r : Progress} (h : p.step = some q) (hshort : q.tokens.length < p.tokens.length)
      (hrest : Leads q r) : Leads p r

namespace Leads

variable {p q r : Progress}

theorem trans (hpq : Leads p q) (hqr : Leads q r) : Leads p r := by
  induction hpq with
  | refl => exact hqr
  | step h hshort _ ih => exact .step h hshort (ih hqr)

/-- Steps that are spared at the start are spared behind some tokens as well. -/
theorem exists_run (h : Leads p q) (spared : Nat) : ∀ fuel, p.tokens.length + spared ≤ fuel →
    ∃ fuel', q.tokens.length + spared ≤ fuel' ∧ run fuel p = run fuel' q := by
  induction h with
  | refl => exact fun fuel hfuel => ⟨fuel, hfuel, rfl⟩
  | step h hshort _ ih =>
    intro fuel hfuel
    obtain ⟨fuel, rfl⟩ := Nat.exists_eq_add_of_lt (Nat.lt_of_lt_of_le
      (Nat.zero_lt_of_lt hshort) (Nat.le_of_add_right_le hfuel))
    -- the step that is made costs the token that it takes up
    obtain ⟨fuel', hfuel', hrun⟩ := ih (0 + fuel) (by omega)
    refine ⟨fuel', hfuel', ?_⟩
    rw [run, h, ← hrun]

end Leads

/-! ## Nodes without marks -/

section Steps

variable {gs : List Goal} {ts : List Token} {as : Abbreviations} {es : List Event}
  {block unindented : Bool}

theorem step_scalar (text : String) (style : Style) :
    step ⟨.node block unindented :: gs, .scalar text style :: ts, as, es⟩
      = some ⟨gs, ts, as, es ++ [.scalar .none text style]⟩ := rfl

theorem step_flowMappingStart :
    step ⟨.node block unindented :: gs, .flowMappingStart :: ts, as, es⟩
      = some ⟨.flowKey true :: gs, ts, as, es ++ [.mappingStart .none]⟩ := rfl

theorem step_blockMappingStart :
    step ⟨.node true unindented :: gs, .blockMappingStart :: ts, as, es⟩
      = some ⟨.blockKey :: gs, ts, as, es ++ [.mappingStart .none]⟩ := by
  simp [step, node, anchorAndTag, resolveTag, nodeContent, goOn, Marks.none]

theorem step_blockKey (k : String) (style : Style) :
    step ⟨.blockKey :: gs, .key :: .scalar k style :: ts, as, es⟩
      = some ⟨.node true true :: .blockValue :: gs, .scalar k style :: ts, as, es⟩ := by
  simp [step, blockKey, nodeUnless, goOn]

theorem step_blockValue {t : Token} (ht : t ∉ [Token.key, .value, .blockEnd]) :
    step ⟨.blockValue :: gs, .value :: t :: ts, as, es⟩
      = some ⟨.node true true :: .blockKey :: gs, t :: ts, as, es⟩ := by
  simp only [step, blockValue, nodeUnless, if_neg ht, goOn, List.append_nil]

theorem step_blockEnd :
    step ⟨.blockKey :: gs, .blockEnd :: ts, as, es⟩ = some ⟨gs, ts, as, es ++ [.mappingEnd]⟩ := rfl

/-- The first key in braces follows the brace, every other one a comma. -/
theorem step_flowKey (first : Bool) (k : String) (style : Style) :
    step ⟨.flowKey first :: gs,
        (if first then [] else [.flowEntry]) ++ .key :: .scalar k style :: ts, as, es⟩
      = some ⟨.node false false :: .flowValue :: gs, .scalar k style :: ts, as, es⟩ := by
  cases first <;> simp [step, flowKey, behindComma, nodeUnless, goOn]

theorem step_flowValue {t : Token} (ht : t ∉ [Token.flowEntry, .flowMappingEnd]) :
    step ⟨.flowValue :: gs, .value :: t :: ts, as, es⟩
      = some ⟨.node false false :: .flowKey false :: gs, t :: ts, as, es⟩ := by
  simp only [step, flowValue, nodeUnless, if_neg ht, goOn, List.append_nil]

theorem step_flowMappingEnd (first : Bool) :
    step ⟨.flowKey first :: gs, .flowMappingEnd :: ts, as, es⟩
      = some ⟨gs, ts, as, es ++ [.mappingEnd]⟩ := rfl

end Steps

end Progress

namespace Tree

open Progress

/-! ## Events of lines -/

/-- A tree in lines starts with a scalar or a block. -/
theorem exists_blockTokens (t : Tree) : ∃ first rest, t.blockTokens = first :: rest ∧
    first ∉ [Token.key, .value, .blockEnd] ∧ Progress.isFrame first = false := by
  cases t with
  | leaf w => exact ⟨_, _, rfl, by simp, rfl⟩
  | node step ms => exact ⟨_, _, rfl, by simp, rfl⟩

mutual

/-- The tokens of a tree behind the colon of a key make its events. -/
theorem leads_block : (t : Tree) → ∀ (unindented : Bool) (gs : List Goal) (ts : List Token)
    (as : Abbreviations) (es : List Event),
    Leads ⟨.node true unindented :: gs, t.blockTokens ++ ts, as, es⟩
      ⟨gs, ts, as, es ++ t.events .plain⟩
  | .leaf w, _, gs, ts, as, es => .step (step_scalar w .plain) (by simp [blockTokens]) (.refl _)
  | .node step ms, unindented, gs, ts, as, es => by
    have hmembers := leads_lines ms gs ts as (es ++ [.mappingStart .none])
    have htokens : (node step ms).blockTokens ++ ts
        = .blockMappingStart :: (lineTokens ms ++ .blockEnd :: ts) := by simp [blockTokens]
    rw [htokens]
    refine .step step_blockMappingStart (by simp) ?_
    simpa [events] using hmembers

/-- So do the tokens of the members of a mapping up to its end. -/
theorem leads_lines : (ms : List (String × Tree)) → ∀ (gs : List Goal) (ts : List Token)
    (as : Abbreviations) (es : List Event),
    Leads ⟨.blockKey :: gs, lineTokens ms ++ .blockEnd :: ts, as, es⟩
      ⟨gs, ts, as, es ++ (memberEvents .plain ms ++ [.mappingEnd])⟩
  | [], gs, ts, as, es => .step step_blockEnd (by simp [lineTokens]) (.refl _)
  | (k, t) :: ms, gs, ts, as, es => by
    obtain ⟨first, rest, hfirst, hends, -⟩ := t.exists_blockTokens
    have hvalue := leads_block t true (.blockKey :: gs) (lineTokens ms ++ .blockEnd :: ts) as
      (es ++ [.scalar .none k .plain])
    have hothers := leads_lines ms gs ts as (es ++ [.scalar .none k .plain] ++ t.events .plain)
    have htokens : lineTokens ((k, t) :: ms) ++ .blockEnd :: ts = .key :: .scalar k .plain ::
        .value :: (t.blockTokens ++ (lineTokens ms ++ .blockEnd :: ts)) := by simp [lineTokens]
    rw [htokens]
    refine .step (step_blockKey k .plain) (by simp) (.step (step_scalar k .plain) (by simp) ?_)
    -- what stands behind the colon tells that the value is not left out
    rw [hfirst] at hvalue ⊢
    refine .step (step_blockValue hends) (by simp) ?_
    simpa [memberEvents] using hvalue.trans hothers

end

/-! ## Events of braces -/

/-- A tree in braces starts with a scalar or a brace. -/
theorem exists_flowTokens (t : Tree) : ∃ first rest, t.flowTokens = first :: rest ∧
    first ∉ [Token.flowEntry, .flowMappingEnd] ∧ Progress.isFrame first = false := by
  cases t with
  | leaf w => exact ⟨_, _, rfl, by simp, rfl⟩
  | node step ms => exact ⟨_, _, rfl, by simp, rfl⟩

/-- Behind a member stand a comma and the other members, if there are any. -/
theorem flowMemberTokens_cons (k : String) (t : Tree) (ms : List (String × Tree)) :
    flowMemberTokens ((k, t) :: ms) = .key :: .scalar k .doubleQuoted :: .value ::
      (t.flowTokens ++ ((if ms.isEmpty then [] else [.flowEntry]) ++ flowMemberTokens ms)) := by
  cases ms <;> simp [flowMemberTokens]

mutual

/-- The tokens of a tree in braces make its events. -/
theorem leads_flow : (t : Tree) → ∀ (block unindented : Bool) (gs : List Goal) (ts : List Token)
    (as : Abbreviations) (es : List Event),
    Leads ⟨.node block unindented :: gs, t.flowTokens ++ ts, as, es⟩
      ⟨gs, ts, as, es ++ t.events .doubleQuoted⟩
  | .leaf w, _, _, gs, ts, as, es =>
    .step (step_scalar w .plain) (by simp [flowTokens]) (.refl _)
  | .node step ms, block, unindented, gs, ts, as, es => by
    have hmembers := leads_flowMembers ms true gs ts as (es ++ [.mappingStart .none])
    have htokens : (node step ms).flowTokens ++ ts
        = .flowMappingStart :: (flowMemberTokens ms ++ .flowMappingEnd :: ts) := by
      simp [flowTokens]
    rw [htokens]
    refine .step step_flowMappingStart (by simp) ?_
    cases ms with
    | nil => simpa [events] using hmembers
    | cons m ms => simpa [events] using hmembers

/-- So do the tokens of the members of a mapping up to the closing brace. -/
theorem leads_flowMembers : (ms : List (String × Tree)) → ∀ (first : Bool) (gs : List Goal)
    (ts : List Token) (as : Abbreviations) (es : List Event),
    Leads ⟨.flowKey first :: gs, (if first || ms.isEmpty then [] else [.flowEntry]) ++
        (flowMemberTokens ms ++ .flowMappingEnd :: ts), as, es⟩
      ⟨gs, ts, as, es ++ (memberEvents .doubleQuoted ms ++ [.mappingEnd])⟩
  | [], first, gs, ts, as, es => by
    have hend : Leads ⟨.flowKey first :: gs, .flowMappingEnd :: ts, as, es⟩
        ⟨gs, ts, as, es ++ [.mappingEnd]⟩ :=
      .step (step_flowMappingEnd first) (by simp) (.refl _)
    simpa [flowMemberTokens, memberEvents] using hend
  | (k, t) :: ms, first, gs, ts, as, es => by
    obtain ⟨front, rest, hfront, hends, -⟩ := t.exists_flowTokens
    have hvalue := leads_flow t false false (.flowKey false :: gs)
      ((if ms.isEmpty then [] else [.flowEntry]) ++ (flowMemberTokens ms ++ .flowMappingEnd :: ts))
      as (es ++ [.scalar .none k .doubleQuoted])
    have hothers := leads_flowMembers ms false gs ts as
      (es ++ [.scalar .none k .doubleQuoted] ++ t.events .doubleQuoted)
    have htokens : (if first || ((k, t) :: ms).isEmpty then [] else [.flowEntry]) ++
        (flowMemberTokens ((k, t) :: ms) ++ .flowMappingEnd :: ts)
        = (if first then [] else [.flowEntry]) ++ .key :: .scalar k .doubleQuoted :: .value ::
          (t.flowTokens ++ ((if ms.isEmpty then [] else [.flowEntry]) ++
            (flowMemberTokens ms ++ .flowMappingEnd :: ts))) := by
      simp [flowMemberTokens_cons]
    rw [Bool.false_or] at hothers
    rw [htokens]
    refine .step (step_flowKey first k .doubleQuoted) (by simp; omega)
      (.step (step_scalar k .doubleQuoted) (by simp) ?_)
    rw [hfront] at hvalue ⊢
    refine .step (step_flowValue hends) (by simp) ?_
    simpa [memberEvents] using hvalue.trans hothers

end

/-! ## Documents -/

/-- The events of a stream that consists of one node without marks. -/
theorem eventsOf_eq {first : Token} {ts : List Token} {es : List Event}
    (hframe : Progress.isFrame first = false)
    (h : Leads ⟨[.node true false, .documentEnd], first :: ts ++ [.streamEnd], defaultAbbreviations,
        [.documentStart]⟩
      ⟨[.documentEnd], [.streamEnd], defaultAbbreviations, [.documentStart] ++ es⟩) :
    eventsOf (first :: ts ++ [.streamEnd])
      = .documentStart :: (es ++ [.documentEnd, .streamEnd]) := by
  -- the document starts in front of its first token without a mark
  have hstart : step (Progress.start (first :: ts ++ [.streamEnd]))
      = some ⟨[.node true false, .documentEnd], first :: ts ++ [.streamEnd], defaultAbbreviations,
        [.documentStart]⟩ := by
    cases first with
    | version | abbreviation | documentStart | streamEnd => cases hframe
    | _ => rfl
  -- three steps are spared for the ends of the document and of the stream
  obtain ⟨fuel, hfuel, hrun⟩ := h.exists_run 3 (8 * (first :: ts ++ [Token.streamEnd]).length + 7)
    (by simp; omega)
  obtain ⟨fuel, rfl⟩ := Nat.exists_eq_add_of_le' (m := 4) (by simpa using hfuel)
  rw [eventsOf, Progress.run, hstart]
  simp only
  rw [hrun]
  simp [Progress.run, step, endDocument, document, skipEndMarks, goOn]

mutual

/-- The events of a tree are collected as its nodes. -/
theorem collect_events (style : Style) : (t : Tree) → ∀ (es : List Event) (d : Document.Draft),
    Document.Draft.collect (t.events style ++ es) d
      = Document.Draft.collect es { d with nodes := d.nodes ++ t.nodes style }
  | .leaf w, es, d => rfl
  | .node step ms, es, d => by
    have hmembers := collect_memberEvents style ms (.mappingEnd :: es) (d.push .mappingStart)
    have hevents : (node step ms).events style ++ es
        = .mappingStart .none :: (memberEvents style ms ++ .mappingEnd :: es) := by simp [events]
    rw [hevents, Document.Draft.collect]
    refine hmembers.trans ?_
    simp [Document.Draft.collect, Document.Draft.push, nodes]

/-- So are the events of members. -/
theorem collect_memberEvents (style : Style) : (ms : List (String × Tree)) →
    ∀ (es : List Event) (d : Document.Draft),
    Document.Draft.collect (memberEvents style ms ++ es) d
      = Document.Draft.collect es { d with nodes := d.nodes ++ memberNodes style ms }
  | [], es, d => by simp [memberEvents, memberNodes]
  | (k, t) :: ms, es, d => by
    have hevents : memberEvents style ((k, t) :: ms) ++ es
        = .scalar .none k style :: (t.events style ++ (memberEvents style ms ++ es)) := by
      simp [memberEvents]
    rw [hevents, Document.Draft.collect, collect_events style t, collect_memberEvents style ms]
    simp [Document.Draft.anchor, Document.Draft.push, Marks.none, memberNodes]

end

theorem ofEvents_events (style : Style) (t : Tree) :
    Document.ofEvents (.documentStart :: (t.events style ++ [.documentEnd, .streamEnd]))
      = ⟨t.nodes style, [], true⟩ := by
  rw [Document.ofEvents, Document.Draft.collect, collect_events]
  rfl

/-- The document of a mapping in lines, however they are spaced. -/
theorem ofText_laid {ms : List (String × Tree)} {text : String} (h : Laid ms text.toList)
    (step : Nat) : Document.ofText text = ⟨(node step ms).nodes .plain, [], true⟩ := by
  have htokens : tokensOf text.toList
      = .blockMappingStart :: (lineTokens ms ++ [.blockEnd]) ++ [.streamEnd] := by
    simp [h.tokensOf_eq]
  have hevents := leads_block (node step ms) false [.documentEnd] [.streamEnd]
    defaultAbbreviations [.documentStart]
  rw [Document.ofText, htokens, eventsOf_eq rfl hevents, ofEvents_events]

/-- The document of a mapping in its canonical lines. -/
theorem ofText_lines {column step : Nat} {ms : List (String × Tree)} {text : String}
    (h : (node step ms).Tidy 1024) (htext : text.toList = lines column ms) :
    Document.ofText text = ⟨(node step ms).nodes .plain, [], true⟩ :=
  ofText_laid (htext ▸ laid_lines h) step

/-- The document of a mapping in braces. -/
theorem ofText_flow {step : Nat} {ms : List (String × Tree)} {text : String}
    (h : (node step ms).Tidy 1022) (htext : text.toList = (node step ms).flow) :
    Document.ofText text = ⟨(node step ms).nodes .doubleQuoted, [], true⟩ := by
  have hevents := leads_flow (node step ms) true false [.documentEnd] [.streamEnd]
    defaultAbbreviations [.documentStart]
  rw [Document.ofText, htext, tokensOf_flow h, flowTokens]
  rw [eventsOf_eq rfl hevents, ofEvents_events]

end Tree

end MuxBridge.Yaml
