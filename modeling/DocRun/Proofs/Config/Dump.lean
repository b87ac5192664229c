import DocRun.Config.Dump
import DocRun.Proofs.Except
import DocRun.Proofs.Json.RoundTrip
import DocRun.Proofs.Settings.Field
import DocRun.Proofs.Utf8

namespace DocRun

-- A path whose bytes are the encoding of some text.
def Path.IsText (path : Path) : Prop := ∃ text : String, path.bytes = Utf8.encode text.toList

-- A path is dumped as the string that it encodes.
def Path.DumpedAs (path : Path) (json : Json) : Prop :=
  ∃ text : String, json = .str text ∧ path.bytes = Utf8.encode text.toList

-- What a reader of a dump has to find at a field for the value that the field has.
def FieldValue.DumpedAs : FieldValue → Json → Prop
  | flag value, json => json = .bool value
  | number value, json => json = .int value.toNat
  | tier value, json => json = .str value.name
  | path value, json => value.DumpedAs json
  | text value, json => json = .str value
  | textOrNone none, json => json = .null
  | textOrNone (some value), json => json = .str value
  | pathOrNone none, json => json = .null
  | pathOrNone (some value), json => value.DumpedAs json
  | texts values, json => json = .arr (values.map .str)
  | paths values, json => ∃ items, json = .arr items ∧ List.Forall₂ Path.DumpedAs values items

theorem Path.isText_ofText (text : String) : (Path.ofText text).IsText := ⟨text, rfl⟩

theorem Path.text?_eq_some_iff {path : Path} {text : String} :
    path.text? = some text ↔ path.bytes = Utf8.encode text.toList := by
  simp only [Path.text?, Option.map_eq_some_iff, Utf8.decode?_eq_some_iff]
  constructor
  · rintro ⟨chars, h, rfl⟩
    rwa [String.toList_ofList]
  · intro h
    exact ⟨text.toList, h, String.ofList_toList⟩

theorem Path.toJson_of_isText {path : Path} (h : path.IsText) :
    ∃ json, path.toJson = .ok json ∧ path.DumpedAs json := by
  obtain ⟨text, ht⟩ := h
  refine ⟨.str text, ?_, text, rfl, ht⟩
  rw [Path.toJson, Path.text?_eq_some_iff.mpr ht]

theorem FieldValue.toJson_of_isText {value : FieldValue}
    (h : ∀ path ∈ value.allPaths, path.IsText) :
    ∃ json, value.toJson = .ok json ∧ value.DumpedAs json := by
  cases value with
  | flag value => exact ⟨_, rfl, rfl⟩
  | number value => exact ⟨_, rfl, rfl⟩
  | tier value => exact ⟨_, rfl, rfl⟩
  | path value => exact Path.toJson_of_isText (h value List.mem_cons_self)
  | text value => exact ⟨_, rfl, rfl⟩
  | textOrNone value => cases value <;> exact ⟨_, rfl, rfl⟩
  | pathOrNone value =>
      cases value with
      | none => exact ⟨_, rfl, rfl⟩
      | some value => exact Path.toJson_of_isText (h value List.mem_cons_self)
  | texts values => exact ⟨_, rfl, rfl⟩
  | paths values =>
      obtain ⟨items, hi, hd⟩ := mapM_ok_forall₂ fun path (hp : path ∈ values) =>
        Path.toJson_of_isText (h path hp)
      refine ⟨.arr items, ?_, items, rfl, hd⟩
      simp only [FieldValue.toJson, hi, bind, Except.bind]

theorem Path.dumpedAs_unique {p q : Path} {json : Json} (hp : p.DumpedAs json)
    (hq : q.DumpedAs json) : p = q := by
  obtain ⟨s, rfl, hs⟩ := hp
  obtain ⟨t, ht, hb⟩ := hq
  obtain rfl := Json.str.inj ht
  cases p
  cases q
  exact congrArg Path.mk (hs.trans hb.symm)

-- One JSON value stands for at most one value of each kind.
theorem FieldValue.dumpedAs_unique {v w : FieldValue} {json : Json} (h : v.Alike w)
    (hv : v.DumpedAs json) (hw : w.DumpedAs json) : v = w := by
  cases h with
  | flag v w => rw [Json.bool.inj (hv.symm.trans hw)]
  | number v w =>
      have hn := Json.int.inj (hv.symm.trans hw)
      rw [UInt32.toNat_inj.mp (Int.ofNat.inj hn)]
  | tier v w => rw [Tier.name_injective (Json.str.inj (hv.symm.trans hw))]
  | path v w => rw [Path.dumpedAs_unique hv hw]
  | text v w => rw [Json.str.inj (hv.symm.trans hw)]
  | textOrNone v w =>
      cases v <;> cases w <;> simp_all [DumpedAs]
  | pathOrNone v w =>
      cases v <;> cases w
      · rfl
      · obtain ⟨text, ht, _⟩ := hw
        exact absurd (hv.symm.trans ht) (by simp)
      · obtain ⟨text, ht, _⟩ := hv
        exact absurd (hw.symm.trans ht) (by simp)
      · rw [Path.dumpedAs_unique hv hw]
  | texts v w =>
      have hl := Json.arr.inj (hv.symm.trans hw)
      rw [(List.map_inj_right fun _ _ => Json.str.inj).mp hl]
  | paths v w =>
      obtain ⟨items, rfl, hd⟩ := hv
      obtain ⟨others, ho, he⟩ := hw
      obtain rfl := Json.arr.inj ho
      have hu : Relator.LeftUnique Path.DumpedAs := fun _ _ _ hp hq => Path.dumpedAs_unique hp hq
      rw [List.left_unique_forall₂' hu hd he]

theorem Path.plain_of_dumpedAs {path : Path} {json : Json} (h : path.DumpedAs json) :
    json.Plain := by
  obtain ⟨text, rfl, _⟩ := h
  trivial

theorem Path.plainItems_of_dumpedAs {values : List Path} {items : List Json}
    (h : List.Forall₂ Path.DumpedAs values items) : Json.PlainItems items := by
  induction h with
  | nil => trivial
  | cons hd _ ih => exact ⟨Path.plain_of_dumpedAs hd, ih⟩

-- Nothing in a dump is a floating-point number, and its integers are those of 32 bits.
theorem FieldValue.plain_of_dumpedAs {value : FieldValue} {json : Json}
    (h : value.DumpedAs json) : json.Plain := by
  cases value with
  | number value =>
      obtain rfl := h
      have hv := value.toNat_lt
      simp only [Json.Plain]
      omega
  | path value => exact Path.plain_of_dumpedAs h
  | textOrNone value => cases value <;> obtain rfl := h <;> trivial
  | pathOrNone value =>
      cases value with
      | none =>
          obtain rfl := h
          trivial
      | some value => exact Path.plain_of_dumpedAs h
  | texts values =>
      obtain rfl := h
      simp [Json.Plain, Json.plainItems_iff]
  | paths values =>
      obtain ⟨items, rfl, hd⟩ := h
      exact Path.plainItems_of_dumpedAs hd
  | _ =>
      obtain rfl := h
      trivial

-- What a reader of a dump has to find at a field of the settings.
def Settings.MemberOf (settings : Settings) (field : Field) (member : String × Json) : Prop :=
  member.1 = field.key ∧ (settings.value field).DumpedAs member.2

theorem Settings.memberOf_of_isText {settings : Settings}
    (h : ∀ path ∈ settings.allPaths, path.IsText) (field : Field) :
    ∃ member, settings.memberOf field = .ok member ∧ settings.MemberOf field member := by
  obtain ⟨json, hj, hd⟩ := FieldValue.toJson_of_isText fun path hp => h path (mem_allPaths hp)
  refine ⟨(field.key, json), ?_, rfl, hd⟩
  simp only [Settings.memberOf, hj, bind, Except.bind]

theorem Settings.toJson_of_isText {settings : Settings}
    (h : ∀ path ∈ settings.allPaths, path.IsText) :
    ∃ members, settings.toJson = .ok (.obj members) ∧
      List.Forall₂ settings.MemberOf Field.all members := by
  obtain ⟨members, hm, hd⟩ := mapM_ok_forall₂ fun field (_ : field ∈ Field.all) =>
    memberOf_of_isText h field
  refine ⟨members, ?_, hd⟩
  simp only [Settings.toJson, hm, bind, Except.bind]

theorem plain_members {settings : Settings} {fields : List Field} {members : List (String × Json)}
    (h : List.Forall₂ settings.MemberOf fields members) : (Json.obj members).Plain := by
  rw [Json.Plain]
  induction h with
  | nil => trivial
  | cons hm _ ih => exact ⟨FieldValue.plain_of_dumpedAs hm.2, ih⟩

theorem keys_of_members {settings : Settings} {fields : List Field}
    {members : List (String × Json)} (h : List.Forall₂ settings.MemberOf fields members) :
    members.map Prod.fst = fields.map Field.key := by
  induction h with
  | nil => rfl
  | cons hm _ ih => rw [List.map_cons, List.map_cons, hm.1, ih]

-- Records whose members are the same agree at every field.
theorem value_eq_of_members {s t : Settings} {fields : List Field}
    {members : List (String × Json)} (hs : List.Forall₂ s.MemberOf fields members)
    (ht : List.Forall₂ t.MemberOf fields members) :
    ∀ field ∈ fields, s.value field = t.value field := by
  induction hs with
  | nil => simp
  | cons hm _ ih =>
      cases ht with
      | cons hn ht =>
          rintro field (_ | ⟨_, hf⟩)
          · exact FieldValue.dumpedAs_unique (s.value_alike t _) hm.2 hn.2
          · exact ih ht field hf

-- The dump is one value of JSON, a record of all fields in order, and each of them reads back as
-- what the field holds. So equal dumps come from configurations that differ in the mark at most.
theorem Config.dump_reads_back (config other : Config)
    (hc : ∀ path ∈ config.allPaths, path.IsText) (ho : ∀ path ∈ other.allPaths, path.IsText) :
    (∃ text members, config.dump = .ok text ∧ Json.parse text = .ok (.obj members) ∧
      members.length = 21 ∧ members.map Prod.fst = Field.all.map Field.key ∧
      (members.map Prod.fst).Nodup ∧ List.Forall₂ config.MemberOf Field.all members) ∧
    (config.dump = other.dump ↔ config.toSettings = other.toSettings) := by
  obtain ⟨members, hm, hd⟩ := Settings.toJson_of_isText hc
  obtain ⟨others, hn, he⟩ := Settings.toJson_of_isText ho
  have hkeys := keys_of_members hd
  refine ⟨⟨(Json.obj members).compact, members, ?_, Json.parse_compact (plain_members hd), ?_,
    hkeys, ?_, hd⟩, ?_, ?_⟩
  · rw [Config.dump, hm]
    rfl
  · rw [← hd.length_eq]
    rfl
  · rw [hkeys]
    exact Field.key_nodup
  · intro h
    rw [Config.dump, Config.dump, hm, hn] at h
    have hj := Json.compact_injective (plain_members hd) (plain_members he) (Except.ok.inj h)
    obtain rfl := Json.obj.inj hj
    exact Settings.ext_value fun field => value_eq_of_members hd he field (Field.mem_all field)
  · intro h
    rw [Config.dump, Config.dump, h]

-- Texts that look like JSON, next to characters that have to be escaped.
def Config.awkward : Config where
  rootDir := Path.ofText "/src/\",\"root_dir\":null"
  compileCommands := Path.ofText "C:\\build\\u0041"
  outputDir := Path.ofText ""
  projectName := "\"\x7d],\x00\x1f\n\t"
  projectVersion := some "null"
  homepage := some (Path.ofText "über\\\".md")
  ignorePaths := ["", "[\",\"]", "\\"]
  markdownPaths := [Path.ofText "a,b", Path.ofText "\""]
  fileLimit := 4294967295
  initialized := true

theorem Config.awkward_isText : ∀ path ∈ Config.awkward.allPaths, path.IsText := by
  simp [Config.awkward, Settings.allPaths, Path.isText_ofText]

theorem Config.awkward_dump_reads_back :
    (∀ path ∈ Config.awkward.allPaths, path.IsText) ∧
    (∃ text members, Config.awkward.dump = .ok text ∧ Json.parse text = .ok (.obj members) ∧
      members.length = 21 ∧ members.map Prod.fst = Field.all.map Field.key ∧
      (members.map Prod.fst).Nodup ∧
      List.Forall₂ Config.awkward.MemberOf Field.all members) ∧
    Config.awkward.dump = Config.awkward.draft.dump := by
  have h := Config.dump_reads_back Config.awkward Config.awkward.draft Config.awkward_isText
    Config.awkward_isText
  exact ⟨Config.awkward_isText, h.1, h.2.mpr rfl⟩

end DocRun
