/-
# Configurations that are loaded back

A configuration is written as lines by one writer and in braces by another. Both texts tell the same
tree, so both are loaded as the configuration they were written for, or rejected with its two
deadlines where a resolution has no time for a round trip. A file is loaded as the text that its
bytes encode.

* `Config.tree`: a configuration as a tree of words;
* `Config.readYaml_of_tree`: a document with that tree is read as the configuration;
* `Config.loads_written`: the main result.
-/
import MuxBridge.Proofs.Coding.RoundTrip
import MuxBridge.Proofs.Yaml.Partial

namespace MuxBridge

open Yaml

/-! ## Configurations as trees -/

namespace Config

/-- The sections of a configuration. -/
def sections (c : Config) : List (String × Tree) :=
  [(rpcKey, numberTree requestKey c.rpc.requestMillis),
    (delegateKey, numberTree resolveKey c.delegate.resolveMillis)]

/-- A configuration as a tree. -/
def tree (c : Config) : Tree := .node 2 c.sections

variable (c : Config)

theorem toList_toYaml : c.toYaml.toList = Tree.lines 0 c.sections := by
  simp [toYaml, MuxBridge.yamlSection, sections, numberTree, Tree.lines, Tree.block, List.replicate]

theorem toList_text_toJson : c.toJson.text.toList = c.tree.flow := by
  have hkeys : ∀ k ∈ [rpcKey, delegateKey, requestKey, resolveKey],
      Json.writeString k = '"' :: (k.toList ++ ['"']) := by decide
  simp only [List.forall_mem_cons] at hkeys
  obtain ⟨hrpc, hdelegate, hrequest, hresolve, -⟩ := hkeys
  rw [Json.text, String.toList_ofList]
  simp [toJson, RpcSettings.toJson, DelegateSettings.toJson, Json.write, Json.writeMembers, hrpc,
    hdelegate, hrequest, hresolve, Json.nat, Json.writeNumber, Json.writeInt, tree, sections,
    numberTree, Tree.flow, Tree.flowMembers, decimalDigits]

theorem tidy_tree {longest : Nat} (h : 18 ≤ longest) : c.tree.Tidy longest := by
  have hkey : ∀ k ∈ [rpcKey, delegateKey, requestKey, resolveKey], IsKey longest k := by
    have hwords : ∀ k ∈ [rpcKey, delegateKey, requestKey, resolveKey],
        k.toList ≠ [] ∧ k.toList.all isLetter = true ∧ k.toList.length ≤ 18 := by decide
    intro k hk
    obtain ⟨hne, hletters, hlength⟩ := hwords k hk
    exact .of_all ⟨hne, hletters, hlength.trans h⟩
  simp only [List.forall_mem_cons] at hkey
  obtain ⟨hrpc, hdelegate, hrequest, hresolve, -⟩ := hkey
  refine .node (by decide) (by simp [sections]) ?_ ?_
  · simpa [sections] using ⟨hrpc, hdelegate⟩
  · simpa [sections] using ⟨tidy_numberTree hrequest _, tidy_numberTree hresolve _⟩

end Config

/-! ## Reading -/

namespace Config

variable {c : Config}

/-- The sections of a configuration give both of its deadlines. -/
theorem partial_sections (h : c.FitsWords) :
    Partial (some c.rpc.requestMillis) (some c.delegate.resolveMillis) c.sections where
  distinct := show [rpcKey, delegateKey].Nodup by decide
  rpc := gives_numberTree requestKey h.1
  delegate := gives_numberTree resolveKey h.2

/-- A document with the tree of a configuration is read as that configuration. -/
theorem readYaml_of_tree (h : c.FitsWords) {text : String} {style : Style}
    (htext : Document.ofText text = ⟨c.tree.nodes style, [], true⟩) : readYaml text = .ok c :=
  readYaml_of_partial (partial_sections h) htext

/-! ## Loading -/

/-- A written configuration is read back from either of its texts. -/
theorem readYaml_written (h : c.FitsWords) {text : String}
    (htext : text = c.toYaml ∨ text = c.toJson.text) : readYaml text = .ok c := by
  rcases htext with rfl | rfl
  · exact readYaml_of_tree h (Tree.ofText_lines (tidy_tree c (by decide)) (toList_toYaml c))
  · exact readYaml_of_tree h (Tree.ofText_flow (tidy_tree c (by decide)) (toList_text_toJson c))

/-- Whatever is loaded has time for a round trip in a resolution. -/
theorem fits_of_ofYaml {text : String} (h : ofYaml text = .ok c) : c.Fits := by
  unfold ofYaml at h
  split at h
  · cases h
  · next c' _ =>
    by_cases hfits : c'.Fits
    · simp only [validate, hfits, if_true, bind, Except.bind] at h
      obtain rfl : c' = c := Except.ok.inj h
      exact hfits
    · simp only [validate, hfits, if_false, bind, Except.bind] at h
      cases h

/-- A file with the bytes of a text is loaded as that text. -/
theorem ofFile_toUTF8 (text : String) : ofFile (.bytes text.toUTF8) = ofYaml text := by
  have hdecode : String.fromUTF8? text.toUTF8 = some text := by
    exact dif_pos text.isValidUTF8
  simp only [ofFile, FileContent.text, hdecode, bind, Except.bind]

/-- Bytes that encode no text are no file to load. -/
theorem ofFile_invalid {content : ByteArray} (h : ∀ text : String, text.toUTF8 ≠ content) :
    ofFile (.bytes content) = .error (.file "stream did not contain valid UTF-8") := by
  have hdecode : String.fromUTF8? content = none := by
    rw [String.fromUTF8?, dif_neg]
    intro hvalid
    exact h ⟨content, hvalid⟩ rfl
  simp only [ofFile, FileContent.text, hdecode, bind, Except.bind]

/-- **Written configurations are loaded back**, from lines as from braces, and from a text as from a
file: the configuration itself if a resolution has time for a round trip, and else a failure that
names both deadlines. Of all files, those whose bytes encode a text are loaded as that text and all
others fail as files; and nothing is loaded in which a resolution has no time for a round trip. -/
theorem loads_written :
    (∀ c : Config, c.FitsWords → ∀ text, text = c.toYaml ∨ text = c.toJson.text →
      ∀ outcome, outcome = ofYaml text ∨ outcome = ofFile (.bytes text.toUTF8) →
        (c.Fits → outcome = .ok c) ∧
        (¬ c.Fits → outcome = .error (.configuration c.unfitText) ∧ ∃ front middle back,
          c.unfitText = front ++ toString c.delegate.resolveMillis ++ middle ++
            toString c.rpc.requestMillis ++ back)) ∧
      (∀ text : String, ofFile (.bytes text.toUTF8) = ofYaml text) ∧
      (∀ content : ByteArray, (∀ text : String, text.toUTF8 ≠ content) →
        ∃ message, ofFile (.bytes content) = .error (.file message)) ∧
      ∀ (content : FileContent) (c : Config), ofFile content = .ok c → c.Fits := by
  refine ⟨?_, ofFile_toUTF8, fun content h => ⟨_, ofFile_invalid h⟩, ?_⟩
  · intro c h text htext outcome houtcome
    have hload : outcome = ofYaml text := by
      rcases houtcome with rfl | rfl
      · rfl
      · exact ofFile_toUTF8 text
    have hread := readYaml_written h htext
    rw [hload, ofYaml, hread]
    constructor
    · intro hfits
      simp only [validate, hfits, if_true, bind, Except.bind]
      rfl
    · intro hfits
      refine ⟨?_, _, _, _, rfl⟩
      simp only [validate, hfits, if_false, bind, Except.bind]
  · intro content c hload
    obtain ⟨text, htext⟩ : ∃ text, ofYaml text = .ok c := by
      unfold ofFile at hload
      cases htext : content.text with
      | error e =>
        rw [htext] at hload
        cases hload
      | ok text =>
        rw [htext] at hload
        exact ⟨text, hload⟩
    exact fits_of_ofYaml htext

/-- The largest deadlines are loaded back, and a resolution of the default length is rejected next
to them. -/
theorem loads_written_largest :
    let c : Config := ⟨⟨Numeral.maxWord⟩, ⟨Numeral.maxWord⟩⟩
    let d : Config := ⟨⟨Numeral.maxWord⟩, ⟨10000⟩⟩
    c.FitsWords ∧ d.FitsWords ∧ ofFile (.bytes c.toYaml.toUTF8) = .ok c ∧
      ofYaml d.toJson.text = .error (.configuration
        ("delegate.resolve_timeout_ms (10000) must be 0 or >= " ++
          "rpc.request_timeout_ms (18446744073709551615)")) ∧
      ∃ message, ofFile (.bytes ⟨#[0xff]⟩) = .error (.file message) := by
  intro c d
  have hc : c.FitsWords := ⟨Nat.le_refl _, Nat.le_refl _⟩
  have hd : d.FitsWords := by
    refine ⟨Nat.le_refl _, ?_⟩
    show 10000 ≤ Numeral.maxWord
    decide
  have htext : d.unfitText = "delegate.resolve_timeout_ms (10000) must be 0 or >= " ++
      "rpc.request_timeout_ms (18446744073709551615)" := by decide
  have hinvalid : ∀ text : String, text.toUTF8 ≠ ⟨#[0xff]⟩ := by
    intro text h
    have hvalid : (⟨#[0xff]⟩ : ByteArray).IsValidUTF8 := h ▸ text.isValidUTF8
    rw [← ByteArray.validateUTF8_eq_true_iff] at hvalid
    exact absurd hvalid (by decide)
  obtain ⟨hwritten, -, hfile, -⟩ := loads_written
  have hyaml := hwritten c hc _ (.inl rfl) _ (.inr rfl)
  have hjson := hwritten d hd _ (.inr rfl) _ (.inl rfl)
  refine ⟨hc, hd, hyaml.1 (by decide), ?_, hfile _ hinvalid⟩
  rw [← htext]
  exact (hjson.2 (by decide)).1

end Config

end MuxBridge
