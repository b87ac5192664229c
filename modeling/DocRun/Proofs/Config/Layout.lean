import DocRun.Proofs.Config.Dump
import DocRun.Proofs.Config.Outline
import DocRun.Proofs.Json.Layout

namespace DocRun

-- The gaps outside of the literals are all that the two dumps do not share. The shorter one has
-- nothing but visible ASCII there, the longer one ends without a new line, and no literal of
-- either has a control character.
theorem Config.dump_layouts (config : Config) (h : ∀ path ∈ config.allPaths, path.IsText) :
    ∃ text spread, config.dump = .ok text ∧ config.dumpPretty = .ok spread ∧
      Outline.squeeze spread = text ∧
      (∀ c ∈ Outline.outer text, 0x20 < c.toNat ∧ c.toNat < 0x7F) ∧
      (∀ c ∈ Outline.inner text, 0x20 ≤ c.toNat) ∧
      (∀ c ∈ Outline.inner spread, 0x20 ≤ c.toNat) ∧ spread.getLast? ≠ some '\n' := by
  obtain ⟨members, hm, -⟩ := Settings.toJson_of_isText h
  have hdump : config.dump = .ok (Json.obj members).compact := by
    rw [Config.dump, hm]
    rfl
  have hpretty : config.dumpPretty = .ok ((Json.obj members).pretty 0) := by
    rw [Config.dumpPretty, hm]
    rfl
  have htight := Json.tight_compact (.obj members)
  refine ⟨_, _, hdump, hpretty, Json.squeeze_pretty_eq _ 0, htight.forall_mem_outer,
    htight.forall_mem_inner, ?_, ?_⟩
  · rw [Json.inner_pretty]
    exact htight.forall_mem_inner
  · rw [Json.getLast?_pretty_obj]
    decide

-- Texts that look like layout, behind quotes and backslashes that do not end a literal.
def Config.roomy : Config where
  rootDir := Path.ofText "/my docs/\" , \\"
  compileCommands := Path.ofText "\n  \"a\": [ ]\n"
  outputDir := Path.ofText " "
  projectName := "\\\" : \t\x1f\x7f\\"
  ignorePaths := [" ", "\n", "\","]
  markdownPaths := [Path.ofText "a b", Path.ofText "\\\n"]
  initialized := true

theorem Config.dump_layouts_roomy :
    (∀ path ∈ Config.roomy.allPaths, path.IsText) ∧
    ∃ text spread, Config.roomy.dump = .ok text ∧ Config.roomy.dumpPretty = .ok spread ∧
      Outline.squeeze spread = text ∧
      (∀ c ∈ Outline.outer text, 0x20 < c.toNat ∧ c.toNat < 0x7F) ∧
      (∀ c ∈ Outline.inner text, 0x20 ≤ c.toNat) ∧
      (∀ c ∈ Outline.inner spread, 0x20 ≤ c.toNat) ∧ spread.getLast? ≠ some '\n' := by
  have htext : ∀ path ∈ Config.roomy.allPaths, path.IsText := by
    simp [Config.roomy, Settings.allPaths, Path.isText_ofText]
  exact ⟨htext, Config.dump_layouts Config.roomy htext⟩

-- Whichever characters count as hidden, a configuration is shown on one line and on many as one
-- text that is only laid out differently. Every new line belongs to the layout.
theorem Config.shown_layouts (hidden : Char → Bool) (config : Config) :
    Outline.squeeze (config.outline hidden).inline =
      Outline.clean ((config.outline hidden).stacked 0) ∧
    '\n' ∉ Outline.inner (config.outline hidden).inline ∧
    '\n' ∉ Outline.inner ((config.outline hidden).stacked 0) ∧
    '\n' ∉ Outline.clean ((config.outline hidden).stacked 0) := by
  have hproper := config.proper_outline hidden
  have hinline := Outline.squeeze_inline_eq hproper
  have hstacked := Outline.clean_stacked_eq hproper 0
  have hbare := Outline.unbroken_bare hproper
  have hinner : '\n' ∉ Outline.inner (config.outline hidden).bare := fun hline =>
    hbare.forall_mem_inner _ hline rfl
  refine ⟨hinline.trans hstacked.symm, ?_, ?_, ?_⟩
  · rwa [← Outline.inner_squeeze, hinline]
  · rwa [← Outline.inner_clean, hstacked]
  · rw [hstacked]
    exact fun hline => hbare.ne_line _ hline rfl

end DocRun
