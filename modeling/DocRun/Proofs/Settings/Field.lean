import DocRun.Settings.Field

namespace DocRun

-- Values of one kind, as two records hold them at the same field.
inductive FieldValue.Alike : FieldValue → FieldValue → Prop
  | flag (v w : Bool) : Alike (.flag v) (.flag w)
  | number (v w : UInt32) : Alike (.number v) (.number w)
  | tier (v w : Tier) : Alike (.tier v) (.tier w)
  | path (v w : Path) : Alike (.path v) (.path w)
  | text (v w : String) : Alike (.text v) (.text w)
  | textOrNone (v w : Option String) : Alike (.textOrNone v) (.textOrNone w)
  | pathOrNone (v w : Option Path) : Alike (.pathOrNone v) (.pathOrNone w)
  | texts (v w : List String) : Alike (.texts v) (.texts w)
  | paths (v w : List Path) : Alike (.paths v) (.paths w)

theorem Settings.value_alike (s t : Settings) (field : Field) :
    (s.value field).Alike (t.value field) := by
  cases field <;> constructor

-- The paths in a value, and all paths of a record.
def FieldValue.allPaths : FieldValue → List Path
  | path value => [value]
  | pathOrNone value => value.toList
  | paths values => values
  | _ => []

def Settings.allPaths (settings : Settings) : List Path :=
  [settings.rootDir, settings.compileCommands, settings.outputDir] ++ settings.homepage.toList
    ++ settings.markdownPaths

theorem Settings.mem_allPaths {settings : Settings} {field : Field} {path : Path}
    (h : path ∈ (settings.value field).allPaths) : path ∈ settings.allPaths := by
  cases field <;> simp_all [Settings.value, FieldValue.allPaths, Settings.allPaths]

-- Every path of a record stands in one of its fields.
theorem Settings.exists_mem_allPaths {settings : Settings} {path : Path}
    (h : path ∈ settings.allPaths) : ∃ field, path ∈ (settings.value field).allPaths := by
  simp only [Settings.allPaths, List.mem_append, List.mem_cons, List.not_mem_nil, or_false] at h
  obtain ((rfl | rfl | rfl) | hpage) | hmarkdown := h
  · exact ⟨.rootDir, List.mem_cons_self⟩
  · exact ⟨.compileCommands, List.mem_cons_self⟩
  · exact ⟨.outputDir, List.mem_cons_self⟩
  · exact ⟨.homepage, hpage⟩
  · exact ⟨.markdownPaths, hmarkdown⟩

theorem Field.key_nodup : (Field.all.map Field.key).Nodup := by
  decide +kernel

theorem Tier.name_injective {t u : Tier} (h : t.name = u.name) : t = u := by
  have ht := Tier.ofName?_name t
  rw [h, Tier.ofName?_name] at ht
  exact (Option.some.inj ht).symm

end DocRun
