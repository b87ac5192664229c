import DocRun.Config.Outline
import DocRun.Proofs.Outline.Reading
import DocRun.Proofs.Settings.Field
import DocRun.Text.Hidden

namespace DocRun

open Outline (Proper Name isNameChar)

theorem Field.name_key (field : Field) : Name field.key.toList := by
  cases field <;> simp [Field.key, Name, isNameChar]

theorem Tier.name_label (tier : Tier) : Name tier.label.toList := by
  cases tier <;> simp [Tier.label, Name, isNameChar]

theorem Decimal.name_ofNat (n : Nat) : Name (Decimal.ofNat n) := by
  refine ⟨Nat.toDigits_ne_nil, fun c hc => ?_⟩
  have hd : c.isDigit = true := Nat.isDigit_of_mem_toDigits (by decide) (by decide) hc
  simp [isNameChar, Char.isAlphanum, hd]

theorem Outline.proper_flag (value : Bool) : Proper (.flag value) := by
  cases value <;> exact .word (by simp [Name, isNameChar])

theorem Outline.proper_optional {content : Option Outline} (h : ∀ o, content = some o → Proper o) :
    Proper (.optional content) := by
  cases content with
  | none => exact .word (by simp [Name, isNameChar])
  | some o => exact .wrapped (by simp [Name, isNameChar]) (h o rfl)

section

variable (hidden : Char → Bool)

theorem Outline.proper_ofText (text : String) : Proper (.ofText hidden text) :=
  .literal (Quoted.literal_text hidden text.toList)

theorem Outline.proper_ofPath (path : Path) : Proper (.ofPath hidden path) :=
  .literal (Quoted.literal_bytes hidden path.bytes)

theorem FieldValue.proper_outline (value : FieldValue) : Proper (value.outline hidden) := by
  cases value with
  | flag value => exact Outline.proper_flag value
  | number value =>
      refine .word ?_
      rw [String.toList_ofList]
      exact Decimal.name_ofNat _
  | tier value => exact .word value.name_label
  | path value => exact Outline.proper_ofPath hidden value
  | text value => exact Outline.proper_ofText hidden value
  | textOrNone value =>
      refine Outline.proper_optional fun o ho => ?_
      obtain ⟨text, _, rfl⟩ := Option.map_eq_some_iff.mp ho
      exact Outline.proper_ofText hidden text
  | pathOrNone value =>
      refine Outline.proper_optional fun o ho => ?_
      obtain ⟨path, _, rfl⟩ := Option.map_eq_some_iff.mp ho
      exact Outline.proper_ofPath hidden path
  | texts values =>
      refine .list fun item hi => ?_
      obtain ⟨text, _, rfl⟩ := List.mem_map.mp hi
      exact Outline.proper_ofText hidden text
  | paths values =>
      refine .list fun item hi => ?_
      obtain ⟨path, _, rfl⟩ := List.mem_map.mp hi
      exact Outline.proper_ofPath hidden path

theorem Config.proper_outline (config : Config) : Proper (config.outline hidden) := by
  refine .record (by simp [Name, isNameChar]) (List.cons_ne_nil _ _) ?_ ?_
  · intro field hf
    rcases List.mem_cons.mp hf with rfl | hf
    · simp [Name, isNameChar]
    · obtain ⟨field, _, rfl⟩ := List.mem_map.mp hf
      exact field.name_key
  · intro field hf
    rcases List.mem_cons.mp hf with rfl | hf
    · exact Outline.proper_flag config.initialized
    · obtain ⟨field, _, rfl⟩ := List.mem_map.mp hf
      exact (config.value field).proper_outline hidden

theorem Settings.proper_outline (settings : Settings) : Proper (settings.outline hidden) := by
  refine .record (by simp [Name, isNameChar]) (List.cons_ne_nil _ _) ?_ ?_
  · intro field hf
    obtain rfl := List.mem_singleton.mp hf
    simp [Name, isNameChar]
  · intro field hf
    obtain rfl := List.mem_singleton.mp hf
    exact settings.draft.proper_outline hidden

theorem Outline.flag_injective {v w : Bool} (h : Outline.flag v = .flag w) : v = w := by
  cases v <;> cases w
  · rfl
  · exact absurd (Outline.word.inj h) (by decide)
  · exact absurd (Outline.word.inj h) (by decide)
  · rfl

theorem Outline.ofText_injective {s t : String}
    (h : Outline.ofText hidden s = .ofText hidden t) : s = t :=
  String.toList_inj.mp (Quoted.text_injective hidden (Outline.literal.inj h))

theorem Outline.ofPath_injective {p q : Path}
    (h : Outline.ofPath hidden p = .ofPath hidden q) : p = q := by
  cases p
  cases q
  exact congrArg Path.mk (Quoted.bytes_injective hidden (Outline.literal.inj h))

theorem Outline.optional_injective {c d : Option Outline} (h : Outline.optional c = .optional d) :
    c = d := by
  cases c <;> cases d
  · rfl
  · exact nomatch h
  · exact nomatch h
  · rw [(Outline.wrapped.inj h).2]

theorem Decimal.ofNat_injective {m n : Nat} (h : Decimal.ofNat m = Decimal.ofNat n) : m = n := by
  have hm := Nat.ofDigitChars_ten_toDigits (n := m)
  have hn := Nat.ofDigitChars_ten_toDigits (n := n)
  rw [← hm, ← hn]
  exact congrArg (Nat.ofDigitChars 10 · 0) h

theorem Tier.label_injective {t u : Tier} (h : t.label = u.label) : t = u := by
  cases t <;> cases u <;> first | rfl | exact absurd h (by decide)

-- Values of one kind that are shown alike are the same value.
theorem FieldValue.outline_injective {v w : FieldValue} (ha : v.Alike w)
    (h : v.outline hidden = w.outline hidden) : v = w := by
  cases ha with
  | flag v w => rw [Outline.flag_injective h]
  | number v w =>
      have hd := Decimal.ofNat_injective (String.ofList_injective (Outline.word.inj h))
      rw [UInt32.toNat_inj.mp hd]
  | tier v w => rw [Tier.label_injective (Outline.word.inj h)]
  | path v w => rw [Outline.ofPath_injective hidden h]
  | text v w => rw [Outline.ofText_injective hidden h]
  | textOrNone v w =>
      have hm := Outline.optional_injective h
      rw [Option.map_injective (fun _ _ => Outline.ofText_injective hidden) hm]
  | pathOrNone v w =>
      have hm := Outline.optional_injective h
      rw [Option.map_injective (fun _ _ => Outline.ofPath_injective hidden) hm]
  | texts v w =>
      have hm := Outline.list.inj h
      rw [(List.map_inj_right fun _ _ => Outline.ofText_injective hidden).mp hm]
  | paths v w =>
      have hm := Outline.list.inj h
      rw [(List.map_inj_right fun _ _ => Outline.ofPath_injective hidden).mp hm]

theorem Config.outline_injective {c d : Config} (h : c.outline hidden = d.outline hidden) :
    c = d := by
  obtain ⟨-, hfields⟩ := Outline.record.inj h
  obtain ⟨hmark, hvalues⟩ := List.cons.inj hfields
  have hvalue : ∀ field, c.value field = d.value field := by
    intro field
    have hf := List.map_inj_left.mp hvalues field (Field.mem_all field)
    exact FieldValue.outline_injective hidden (c.value_alike d.toSettings field)
      (Prod.mk.inj hf).2
  have hsettings := Settings.ext_value hvalue
  have hinitialized := Outline.flag_injective (Prod.mk.inj hmark).2
  cases c
  cases d
  cases hsettings
  cases hinitialized
  rfl

theorem Settings.outline_injective {s t : Settings} (h : s.outline hidden = t.outline hidden) :
    s = t := by
  obtain ⟨-, hfields⟩ := Outline.record.inj h
  have hdraft := (Prod.mk.inj (List.cons.inj hfields).1).2
  exact congrArg Config.toSettings (Config.outline_injective hidden hdraft)

end

-- Nothing is lost where a configuration or gathered settings are shown, on one line or on many,
-- and whichever characters count as hidden.
theorem Config.shown_lossless (hidden : Char → Bool) :
    (∀ c d : Config, (c.outline hidden).inline = (d.outline hidden).inline → c = d) ∧
    (∀ c d : Config, (c.outline hidden).stacked 0 = (d.outline hidden).stacked 0 → c = d) ∧
    ∀ s t : Settings, (s.outline hidden).inline = (t.outline hidden).inline → s = t := by
  refine ⟨?_, ?_, ?_⟩
  · intro c d h
    exact Config.outline_injective hidden
      (Outline.inline_injective (c.proper_outline hidden) (d.proper_outline hidden) h)
  · intro c d h
    exact Config.outline_injective hidden
      (Outline.stacked_injective (c.proper_outline hidden) (d.proper_outline hidden) h)
  · intro s t h
    exact Settings.outline_injective hidden
      (Outline.inline_injective (s.proper_outline hidden) (t.proper_outline hidden) h)

-- A new line and a stray byte, and the same spelled out.
def Config.meant : Config where
  projectName := "\n"
  rootDir := ⟨[0x2F, 0xFF]⟩
  initialized := true

def Config.spelled : Config where
  projectName := "\\n"
  rootDir := .ofText "/\\xFF"
  initialized := true

theorem Config.shown_lossless_spelled :
    (Config.meant.outline isHidden).inline ≠ (Config.spelled.outline isHidden).inline ∧
    (Config.meant.outline isHidden).stacked 0 ≠ (Config.spelled.outline isHidden).stacked 0 ∧
    (Config.meant.toSettings.outline isHidden).inline =
      ((Settings.applyAll {} [.projectName "\n", .rootDir ⟨[0x2F, 0xFF]⟩]).outline
        isHidden).inline ∧
    Config.meant.toSettings =
      Settings.applyAll {} [.projectName "\n", .rootDir ⟨[0x2F, 0xFF]⟩] := by
  have hne : Config.meant ≠ Config.spelled := by
    intro h
    exact absurd (congrArg (·.projectName) h) (by decide)
  obtain ⟨hinline, hstacked, hgathered⟩ := Config.shown_lossless isHidden
  exact ⟨fun h => hne (hinline _ _ h), fun h => hne (hstacked _ _ h), rfl,
    hgathered _ _ rfl⟩

end DocRun
