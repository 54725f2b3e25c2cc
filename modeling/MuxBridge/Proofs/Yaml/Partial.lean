/-
# Configurations that are told in part

A document need not say everything: what it leaves out keeps its default, be it a field or a whole
section, and what is not known is skipped. So it counts which values are given and nothing else,
neither the order nor the company they stand in.

* `Gives`: what a section, or its absence, says about its only field;
* `Config.Partial`: the documents that give some deadlines and leave out the others;
* `Config.readYaml_of_partial`: such a document is read as the defaults with what is given;
* `Config.overrides_defaults`: the main result.
-/
import MuxBridge.Config.Loading
import MuxBridge.Proofs.Yaml.Sections

namespace MuxBridge

open Yaml

/-! ## Sections -/

/-- What is found under the key of a section gives its only field a value or leaves it out: the
section is missing, or it is a mapping with distinct keys in which the field has that value or is
missing itself. -/
inductive Gives (field : String) : Option Nat → Option Tree → Prop
  | absent : Gives field none none
  | mapping {value : Option Nat} {step : Nat} {ms : List (String × Tree)}
    (hdistinct : (ms.map Prod.fst).Nodup) (hword : ∀ n ∈ value, n ≤ Numeral.maxWord)
    (hvalue : ms.lookup field = value.map fun n => .leaf (decimalDigits n)) :
    Gives field value (some (.node step ms))

/-- Without a section, there is no value. -/
theorem Gives.eq_none {field : String} {value : Option Nat} (h : Gives field value none) :
    value = none := by
  cases h
  rfl

/-! ## Numbers -/

/-- The digits of a number are a word. -/
theorem isWord_decimalDigits (n : Nat) : IsWord (decimalDigits n) where
  ne_nil := by
    rw [decimalDigits, String.toList_ofList]
    exact Nat.toDigits_ne_nil
  letters := by
    rw [decimalDigits, String.toList_ofList]
    intro c hc
    have hdigit : c.isDigit = true := Numeral.isDigit_of_mem_toDigits hc
    simp [isLetter, Char.isAlphanum, hdigit]

/-- A section with one number as a tree. -/
def numberTree (field : String) (n : Nat) : Tree := .node 2 [(field, .leaf (decimalDigits n))]

theorem tidy_numberTree {longest : Nat} {field : String} (h : IsKey longest field) (n : Nat) :
    (numberTree field n).Tidy longest :=
  .node (by decide) (List.cons_ne_nil _ _) (by simpa using h)
    (by simpa using .leaf (isWord_decimalDigits n))

/-- A section with one number gives that number. -/
theorem gives_numberTree (field : String) {n : Nat} (h : n ≤ Numeral.maxWord) :
    Gives field (some n) (some (numberTree field n)) :=
  .mapping (by simp) (by simpa using h) (by simp)

/-! ## Documents of deadlines -/

namespace Config

/-- The members of a document that gives the deadlines of requests and of resolutions, or leaves
them out. Keys are distinct, and what is not known may be anything. -/
structure Partial (request resolve : Option Nat) (ms : List (String × Tree)) : Prop where
  distinct : (ms.map Prod.fst).Nodup
  rpc : Gives requestKey request (ms.lookup rpcKey)
  delegate : Gives resolveKey resolve (ms.lookup delegateKey)

/-- A text with the given members: it is laid out in lines, or is otherwise read as a mapping that
has them. -/
inductive IsText (ms : List (String × Tree)) (text : String) : Prop
  | laid (h : Laid ms text.toList)
  | read {step : Nat} {style : Style}
    (h : Document.ofText text = ⟨(Yaml.Tree.node step ms).nodes style, [], true⟩)

/-! ## Reading -/

theorem hasNumber_rpc : ∃ f, RpcSettings.yamlSection.HasNumber f ∧ f.name = requestKey :=
  ⟨_, ⟨rfl, rfl, rfl, fun _ _ _ _ => rfl⟩, rfl⟩

theorem hasNumber_delegate : ∃ f, DelegateSettings.yamlSection.HasNumber f ∧ f.name = resolveKey :=
  ⟨_, ⟨rfl, rfl, rfl, fun _ _ _ _ => rfl⟩, rfl⟩

/-- A section is read as the value that it gives. -/
theorem read_of_gives {s : Section (Option Nat)} {field : String} {value : Option Nat} {t : Tree}
    (hs : ∃ f, s.HasNumber f ∧ f.name = field) (h : Gives field value (some t)) (d : Document)
    (path : YamlPath) (style : Style) (ns : List Node) :
    s.read d path (t.nodes style ++ ns) = .ok (value, ns) := by
  obtain ⟨f, hnumber, rfl⟩ := hs
  cases h with
  | @mapping _ step _ hdistinct hword hvalue =>
    exact Section.read_number hnumber hdistinct hword hvalue d path step style ns

section Pairs

variable (d : Document) (style : Style) (ns : List Node) {ms : List (String × Tree)} {t : Tree}
  {request resolve : Option Nat} (rpc : Option RpcSettings) (delegate : Option DelegateSettings)

/-- The section of requests sets their settings. -/
theorem readPairs_rpc (h : Gives requestKey request (some t)) (fuel : Nat) :
    yamlSection.readPairs d .root (fuel + 1)
        (Tree.memberNodes style ((rpcKey, t) :: ms) ++ .mappingEnd :: ns) (none, delegate)
      = yamlSection.readPairs d .root fuel (Tree.memberNodes style ms ++ .mappingEnd :: ns)
        (some ((request.map RpcSettings.mk).getD .default), delegate) := by
  refine Section.readPairs_known rfl rfl ?_ fuel
  simp only [read_of_gives hasNumber_rpc h, bind, Except.bind]
  rfl

/-- The section of delegates sets theirs. -/
theorem readPairs_delegate (h : Gives resolveKey resolve (some t)) (fuel : Nat) :
    yamlSection.readPairs d .root (fuel + 1)
        (Tree.memberNodes style ((delegateKey, t) :: ms) ++ .mappingEnd :: ns) (rpc, none)
      = yamlSection.readPairs d .root fuel (Tree.memberNodes style ms ++ .mappingEnd :: ns)
        (rpc, some ((resolve.map DelegateSettings.mk).getD .default)) := by
  refine Section.readPairs_known rfl rfl ?_ fuel
  simp only [read_of_gives hasNumber_delegate h, bind, Except.bind]
  rfl

/-- The settings of a section that is there. -/
def settings {α : Type} (mk : Nat → α) (default : α) (value : Option Nat) (t : Option Tree) :
    Option α := t.map fun _ => (value.map mk).getD default

/-- The members of a document set what has not been set yet, in whatever order they stand. -/
theorem readPairs_partial (h : Partial request resolve ms)
    (hrpc : rpc = none ∨ ms.lookup rpcKey = none)
    (hdelegate : delegate = none ∨ ms.lookup delegateKey = none) :
    ∀ fuel, ms.length < fuel → yamlSection.readPairs d .root fuel
      (Tree.memberNodes style ms ++ .mappingEnd :: ns) (rpc, delegate)
        = .ok (((settings .mk .default request (ms.lookup rpcKey)).or rpc,
            (settings .mk .default resolve (ms.lookup delegateKey)).or delegate), ns) := by
  -- what a member sets is set nowhere behind it, since its key does not come again
  induction ms generalizing request resolve rpc delegate with
  | nil =>
    intro fuel hfuel
    obtain ⟨fuel, rfl⟩ := Nat.exists_eq_add_of_lt hfuel
    exact Section.readPairs_end _
  | cons m ms ih =>
    obtain ⟨k, t⟩ := m
    obtain ⟨hdistinct, hgivesRpc, hgivesDelegate⟩ := h
    rw [List.map_cons, List.nodup_cons] at hdistinct
    have hbehind := Section.lookup_of_not_mem_keys hdistinct.1
    have hother : ∀ key, key ≠ k → ((k, t) :: ms).lookup key = ms.lookup key := by
      intro key hne
      rw [List.lookup_cons, beq_false_of_ne hne]
    intro fuel hfuel
    obtain ⟨fuel, rfl⟩ := Nat.exists_eq_add_of_le' (m := 1) (Nat.one_le_of_lt hfuel)
    have hshort : ms.length < fuel := Nat.lt_of_succ_lt_succ hfuel
    by_cases hk : k = rpcKey
    · subst hk
      rw [List.lookup_cons_self] at hgivesRpc hrpc ⊢
      rw [hother delegateKey (by decide)] at hgivesDelegate hdelegate ⊢
      obtain rfl : rpc = none := hrpc.resolve_right (Option.some_ne_none t)
      have hrest : Partial none resolve ms := ⟨hdistinct.2, hbehind ▸ .absent, hgivesDelegate⟩
      rw [readPairs_rpc d style ns delegate hgivesRpc,
        ih _ delegate hrest (.inr hbehind) hdelegate fuel hshort, hbehind]
      rfl
    · rw [hother rpcKey (Ne.symm hk)] at hgivesRpc hrpc ⊢
      by_cases hk' : k = delegateKey
      · subst hk'
        rw [List.lookup_cons_self] at hgivesDelegate hdelegate ⊢
        obtain rfl : delegate = none := hdelegate.resolve_right (Option.some_ne_none t)
        have hrest : Partial request none ms := ⟨hdistinct.2, hgivesRpc, hbehind ▸ .absent⟩
        rw [readPairs_delegate d style ns rpc hgivesDelegate,
          ih rpc _ hrest hrpc (.inr hbehind) fuel hshort, hbehind]
        rfl
      · rw [hother delegateKey (Ne.symm hk')] at hgivesDelegate hdelegate ⊢
        have hfind : yamlSection.fields.find? (·.name == k) = none := by
          simp [yamlSection, Ne.symm hk, Ne.symm hk']
        rw [Section.readPairs_unknown hfind]
        exact ih rpc delegate ⟨hdistinct.2, hgivesRpc, hgivesDelegate⟩ hrpc hdelegate fuel hshort

end Pairs

/-- A document that is told in part is read as the defaults with what it gives. -/
theorem readYaml_of_partial {request resolve : Option Nat} {ms : List (String × Tree)}
    (h : Partial request resolve ms) {text : String} {step : Nat} {style : Style}
    (htext : Document.ofText text = ⟨(Yaml.Tree.node step ms).nodes style, [], true⟩) :
    readYaml text = .ok ⟨(request.map RpcSettings.mk).getD .default,
      (resolve.map DelegateSettings.mk).getD .default⟩ := by
  have hsettings : ∀ {α : Type} (mk : Nat → α) (default : α) (field : String) (value : Option Nat)
      (t : Option Tree), Gives field value t →
        (settings mk default value t).getD default = (value.map mk).getD default := by
    intro α mk default field value t hgives
    cases t with
    | none => rw [hgives.eq_none]; rfl
    | some t => rfl
  have hread : ∀ d : Document, yamlSection.read d .root ((Yaml.Tree.node step ms).nodes style ++ [])
      = .ok ((settings .mk .default request (ms.lookup rpcKey),
          settings .mk .default resolve (ms.lookup delegateKey)), []) := by
    intro d
    refine Section.read_node step ?_
    intro fuel hfuel
    have hpairs := readPairs_partial d style [] none none h (.inl rfl) (.inl rfl) fuel hfuel
    rwa [Option.or_none, Option.or_none] at hpairs
  rw [List.append_nil] at hread
  simp only [readYaml, Section.readText, htext, hread, bind, Except.bind]
  rw [← hsettings RpcSettings.mk .default _ _ _ h.rpc,
    ← hsettings DelegateSettings.mk .default _ _ _ h.delegate]
  rfl

/-! ## Loading -/

/-- A text that is told in part is loaded as the defaults with what it gives, if they are valid. -/
theorem ofYaml_of_partial {request resolve : Option Nat} {ms : List (String × Tree)}
    (h : Partial request resolve ms) {text : String} (htext : IsText ms text) :
    let c : Config := ⟨⟨request.getD 10000⟩, ⟨resolve.getD 0⟩⟩
    ofYaml text = do
      c.validate
      return c := by
  intro c
  obtain ⟨step, style, hdocument⟩ : ∃ step style,
      Document.ofText text = ⟨(Yaml.Tree.node step ms).nodes style, [], true⟩ := by
    cases htext with
    | laid hlaid => exact ⟨2, .plain, Tree.ofText_laid hlaid 2⟩
    | read hread => exact ⟨_, _, hread⟩
  have hconfig : (⟨(request.map RpcSettings.mk).getD .default,
      (resolve.map DelegateSettings.mk).getD .default⟩ : Config) = c := by
    cases request <;> cases resolve <;> rfl
  rw [ofYaml, readYaml_of_partial h hdocument, hconfig]

/-- A document that gives nothing but the deadline of resolutions, in its canonical lines. -/
theorem laid_delegate (n : Nat) : Laid [(delegateKey, numberTree resolveKey n)]
    (Tree.lines 0 [(delegateKey, numberTree resolveKey n)]) := by
  have hdelegate : IsKey 1024 delegateKey := .of_all (by decide)
  have hresolve : IsKey 1024 resolveKey := .of_all (by decide)
  have htidy : (Yaml.Tree.node 2 [(delegateKey, numberTree resolveKey n)]).Tidy 1024 :=
    .node (by decide) (List.cons_ne_nil _ _) (by simpa using hdelegate)
      (by simpa using tidy_numberTree hresolve n)
  exact Tree.laid_lines htidy

/-- **What a document gives overrides the defaults, and nothing else does.** A text that gives some
deadlines, whatever else is in it and in whatever order, is loaded as the configuration in which the
others have their defaults, if that is valid, and rejected with it if not. So all texts that give
the same deadlines are loaded alike; and where none is given for requests, any deadline for
resolutions that is shorter than the default for requests is rejected. -/
theorem overrides_defaults {request resolve : Option Nat} {ms : List (String × Tree)}
    (h : Partial request resolve ms) {text : String} (htext : IsText ms text) :
    let c : Config := ⟨⟨request.getD 10000⟩, ⟨resolve.getD 0⟩⟩
    (ofYaml text = do
      c.validate
      return c) ∧
    (∀ ms' text', Partial request resolve ms' → IsText ms' text' → ofYaml text' = ofYaml text) ∧
    (request = none → ∀ n ∈ resolve, 0 < n → n < 10000 →
      ofYaml text = .error (.configuration c.unfitText)) := by
  intro c
  have hload := ofYaml_of_partial h htext
  refine ⟨hload, ?_, ?_⟩
  · intro ms' text' h' htext'
    exact (ofYaml_of_partial h' htext').trans hload.symm
  · rintro rfl n hn hpos hlt
    have hunfit : ¬ c.Fits := by
      show ¬ (resolve.getD 0 = 0 ∨ 10000 = 0 ∨ 10000 ≤ resolve.getD 0)
      rw [Option.mem_def.mp hn, Option.getD_some]
      omega
    refine hload.trans ?_
    simp only [validate, c, if_neg hunfit, bind, Except.bind]

/-- Nine seconds are rejected in a text with comments, an empty line, a member that is not known and
breaks of either kind, as they are in the plain text that gives nothing else. -/
theorem overrides_defaults_nineSeconds :
    let ms : List (String × Tree) :=
      [("retries", .leaf "x_1"), (delegateKey, numberTree resolveKey 9000)]
    let ms' : List (String × Tree) := [(delegateKey, numberTree resolveKey 9000)]
    let text := "# deadlines\nretries: x_1\n\ndelegate:  # of delegates\r\n  " ++
      "resolve_timeout_ms:\t9000"
    let text' := "delegate:\n  resolve_timeout_ms: 9000\n"
    Partial none (some 9000) ms ∧ IsText ms text ∧ Partial none (some 9000) ms' ∧ IsText ms' text' ∧
      ofYaml text = .error (.configuration ("delegate.resolve_timeout_ms (9000) must be 0 or >= " ++
        "rpc.request_timeout_ms (10000)")) ∧ ofYaml text' = ofYaml text := by
  intro ms ms' text text'
  have hgives := gives_numberTree resolveKey (n := 9000) (by decide)
  have hmembers : Partial none (some 9000) ms := ⟨by decide, .absent, hgives⟩
  have hmembers' : Partial none (some 9000) ms' := ⟨by decide, .absent, hgives⟩
  have hretries : IsKey 1024 "retries" := .of_all (by decide)
  have hdelegate : IsKey 1024 delegateKey := .of_all (by decide)
  have hresolve : IsKey 1024 resolveKey := .of_all (by decide)
  have hword : IsKey 1024 "x_1" := .of_all (by decide)
  -- the pieces between the words
  have hnone : ∀ c ∈ [], isBlank c = true := by simp
  have hspace : ∀ c ∈ [' '], isBlank c = true := by simp [isBlank]
  have hspaces : ∀ c ∈ [' ', ' '], isBlank c = true := by simp [isBlank]
  have htab : ∀ c ∈ ['\t'], isBlank c = true := by simp [isBlank]
  have hfeed : ∀ r, Breaks r ('\n' :: r) :=
    fun r => .single (by decide) fun h => absurd h (by decide)
  have hfirst : IsComment ('#' :: " deadlines".toList) := .of_all (by decide)
  have hsecond : IsComment ('#' :: " of delegates".toList) := .of_all (by decide)
  -- the text from the last member to the first
  have hsection : LaidMembers 2 [(resolveKey, .leaf (decimalDigits 9000))] 0 [] _ :=
    .last hresolve
      (.leaf (isWord_decimalDigits 9000) htab (by simp) (.last rfl hnone .none (by simp)))
  have hlast : LaidMembers 0 ms' 0 [] _ :=
    .last hdelegate (.node (by decide)
      (.line hspaces hsecond (by simp) .pair (.token (Tree.startsSolid_key hresolve _))) hsection)
  have hall : LaidMembers 0 ms 0 [] _ :=
    .more hretries
      (.leaf hword.toIsWord hspace (by simp) (.line hnone .none (by simp) (hfeed _)
        (.line 0 .none (hfeed _) (.token (Tree.startsSolid_key hdelegate _)))))
      hlast
  have hlaid : Laid ms _ :=
    .intro (.line 0 hfirst (hfeed _) (.token (Tree.startsSolid_key hretries _))) hall
  have htext : IsText ms text := by
    refine .laid (cast (congrArg (Laid ms) ?_) hlaid)
    decide
  have htext' : IsText ms' text' := by
    have hlines : Laid ms' (Tree.lines 0 ms') := laid_delegate 9000
    refine .laid (cast (congrArg (Laid ms') ?_) hlines)
    decide
  obtain ⟨-, halike, hshort⟩ := overrides_defaults hmembers htext
  refine ⟨hmembers, htext, hmembers', htext', ?_, halike ms' text' hmembers' htext'⟩
  exact hshort rfl 9000 rfl (by decide) (by decide)

/-- No deadline for resolutions is no short one: it is accepted next to the default for requests. -/
theorem zero_below_default_accepted :
    let ms : List (String × Tree) := [(delegateKey, numberTree resolveKey 0)]
    let text := "delegate:\n  resolve_timeout_ms: 0\n"
    Partial none (some 0) ms ∧ IsText ms text ∧ 0 < RpcSettings.default.requestMillis ∧
      ofYaml text = .ok ⟨⟨10000⟩, ⟨0⟩⟩ ∧ ¬ ∃ e, ofYaml text = .error e := by
  intro ms text
  have hmembers : Partial none (some 0) ms :=
    ⟨by decide, .absent, gives_numberTree resolveKey (by decide)⟩
  have htext : IsText ms text := by
    have hlines : Laid ms (Tree.lines 0 ms) := laid_delegate 0
    refine .laid (cast (congrArg (Laid ms) ?_) hlines)
    decide
  have hload : ofYaml text = .ok ⟨⟨10000⟩, ⟨0⟩⟩ := ofYaml_of_partial hmembers htext
  refine ⟨hmembers, htext, by decide, hload, ?_⟩
  rintro ⟨e, herror⟩
  rw [hload] at herror
  cases herror

end Config

end MuxBridge
