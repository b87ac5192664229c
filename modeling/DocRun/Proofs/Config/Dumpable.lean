import DocRun.Proofs.Config.Dump
import DocRun.Proofs.Settings.Same
import DocRun.Proofs.Utf8.Boundary
import DocRun.Proofs.Utf8.Malformed

namespace DocRun

theorem Path.isText_iff {path : Path} :
    path.IsText ↔ ∃ text : List Char, path.bytes = Utf8.encode text := by
  constructor
  · rintro ⟨text, h⟩
    exact ⟨text.toList, h⟩
  · rintro ⟨text, h⟩
    exact ⟨String.ofList text, by rwa [String.toList_ofList]⟩

section Failure

theorem Path.isText_of_toJson {path : Path} {json : Json} (h : path.toJson = .ok json) :
    path.IsText := by
  unfold Path.toJson at h
  split at h
  case h_1 text ht => exact ⟨text, Path.text?_eq_some_iff.mp ht⟩
  case h_2 => exact nomatch h

theorem FieldValue.isText_of_toJson {value : FieldValue} {json : Json}
    (h : value.toJson = .ok json) : ∀ path ∈ value.allPaths, path.IsText := by
  cases value with
  | path value => exact List.forall_mem_singleton.mpr (Path.isText_of_toJson h)
  | pathOrNone value =>
      cases value with
      | none => exact fun path hp => absurd hp List.not_mem_nil
      | some value => exact List.forall_mem_singleton.mpr (Path.isText_of_toJson h)
  | paths values =>
      obtain ⟨items, hv, -⟩ := bind_eq_ok_iff.mp h
      intro path hp
      obtain ⟨json, hj⟩ := exists_ok_of_mapM hv path hp
      exact Path.isText_of_toJson hj
  | _ => exact fun path hp => absurd hp List.not_mem_nil

theorem Settings.isText_of_memberOf {settings : Settings} {field : Field}
    {member : String × Json} (h : settings.memberOf field = .ok member) :
    ∀ path ∈ (settings.value field).allPaths, path.IsText := by
  obtain ⟨json, hv, -⟩ := bind_eq_ok_iff.mp h
  exact FieldValue.isText_of_toJson hv

-- A record is dumped unless one of its paths is no text.
theorem Settings.exists_toJson_iff {settings : Settings} :
    (∃ json, settings.toJson = .ok json) ↔ ∀ path ∈ settings.allPaths, path.IsText := by
  constructor
  · rintro ⟨json, h⟩ path hp
    obtain ⟨field, hf⟩ := Settings.exists_mem_allPaths hp
    obtain ⟨members, hm, -⟩ := bind_eq_ok_iff.mp h
    obtain ⟨member, hmember⟩ := exists_ok_of_mapM hm field field.mem_all
    exact Settings.isText_of_memberOf hmember path hf
  · intro h
    obtain ⟨members, hm, -⟩ := Settings.toJson_of_isText h
    exact ⟨.obj members, hm⟩

end Failure

-- A dump fails, in either layout and with one message, if and only if some path is no encoding of
-- a text. That is so if something malformed comes after the encoding of a part of it.
theorem Config.dump_fails_iff (config : Config) :
    (∀ error, config.dump = .error error ↔ config.dumpPretty = .error error) ∧
    (∀ error, config.dump = .error error →
      error.message = "path contains invalid UTF-8 characters") ∧
    ((∃ error, config.dump = .error error) ↔
      ∃ path ∈ config.allPaths, ∀ text : List Char, path.bytes ≠ Utf8.encode text) ∧
    ∀ path : Path, (∀ text : List Char, path.bytes ≠ Utf8.encode text) ↔
      ∃ before rest, path.bytes = Utf8.encode before ++ rest ∧ Utf8.Malformed rest := by
  refine ⟨fun error => ?_, ?_, ?_, fun path => Utf8.ne_encode_iff⟩
  · rw [Config.dump, Config.dumpPretty, map_eq_error_iff, map_eq_error_iff]
  · rintro ⟨⟩ -
    rfl
  · rw [exists_error_iff, Config.dump, exists_map_ok_iff, Settings.exists_toJson_iff]
    simp only [Path.isText_iff, not_forall, not_exists, exists_prop]

section Spelling

-- No way to respell a path cuts an encoding in two or joins one.
theorem Path.exists_encode_iff_of_shortens {p q : List UInt8} (h : Path.Shortens p q) :
    (∃ text, p = Utf8.encode text) ↔ ∃ text, q = Utf8.encode text := by
  have hslash : Path.slash < 0x80 := by decide
  have hdot : Path.dot < 0x80 := by decide
  have hempty : ∃ text, [] = Utf8.encode text := ⟨[], rfl⟩
  have hdots : ∀ v, (∃ text, Path.dot :: v = Utf8.encode text) ↔ ∃ text, v = Utf8.encode text :=
    fun v => (Utf8.exists_encode_append_iff hdot (u := [])).trans (and_iff_right hempty)
  have hslashes : ∀ v, (∃ text, Path.slash :: v = Utf8.encode text) ↔
      ∃ text, v = Utf8.encode text :=
    fun v => (Utf8.exists_encode_append_iff hslash (u := [])).trans (and_iff_right hempty)
  cases h with
  | slashes u v =>
      rw [Utf8.exists_encode_append_iff hslash, Utf8.exists_encode_append_iff hslash, hslashes]
  | innerDot u v =>
      rw [Utf8.exists_encode_append_iff hslash, Utf8.exists_encode_append_iff hslash, hdots,
        hslashes]
  | lastDot u =>
      rw [Utf8.exists_encode_append_iff hslash, Utf8.exists_encode_append_iff hslash, hdots]
  | lastSlash _ _ => rw [Utf8.exists_encode_append_iff hslash, and_iff_left hempty]

theorem Path.exists_encode_iff_of_respelled {p q : List UInt8}
    (h : Relation.EqvGen Path.Shortens p q) :
    (∃ text, p = Utf8.encode text) ↔ ∃ text, q = Utf8.encode text := by
  induction h with
  | rel _ _ h => exact Path.exists_encode_iff_of_shortens h
  | refl _ => exact Iff.rfl
  | symm _ _ _ ih => exact ih.symm
  | trans _ _ _ _ _ ih ih' => exact ih.trans ih'

theorem Path.isText_iff_of_same {p q : Path} (h : p.same q = true) : p.IsText ↔ q.IsText := by
  rw [Path.isText_iff, Path.isText_iff]
  exact Path.exists_encode_iff_of_respelled (Path.same_iff_respelled.mp h)

theorem FieldValue.Same.allPaths {v w : FieldValue} (h : v.Same w) :
    List.Forall₂ (fun p q : Path => p.same q = true) v.allPaths w.allPaths := by
  cases h with
  | refl => exact Path.sameAll_refl _
  | path h => exact .cons h .nil
  | pathOrNone h => exact .cons h .nil
  | paths h => exact h

theorem FieldValue.Same.isText_iff {v w : FieldValue} (h : v.Same w) :
    (∀ path ∈ v.allPaths, path.IsText) ↔ ∀ path ∈ w.allPaths, path.IsText := by
  have hpaths := h.allPaths
  generalize v.allPaths = ps, w.allPaths = qs at hpaths
  induction hpaths with
  | nil => exact Iff.rfl
  | cons hpq _ ih =>
      rw [List.forall_mem_cons, List.forall_mem_cons]
      exact and_congr (Path.isText_iff_of_same hpq) ih

theorem Settings.Same.isText_iff {s t : Settings} (h : s.Same t) :
    (∀ path ∈ s.allPaths, path.IsText) ↔ ∀ path ∈ t.allPaths, path.IsText := by
  constructor
  · intro hs path hp
    obtain ⟨field, hf⟩ := Settings.exists_mem_allPaths hp
    exact (h field).isText_iff.mp (fun p hm => hs p (Settings.mem_allPaths hm)) path hf
  · intro ht path hp
    obtain ⟨field, hf⟩ := Settings.exists_mem_allPaths hp
    exact (h field).isText_iff.mpr (fun p hm => ht p (Settings.mem_allPaths hm)) path hf

end Spelling

-- Equal configurations can both be dumped or neither can, however their paths are spelt.
theorem Config.dumpable_iff_of_same (c d : Config) (h : c.same d = true) :
    ((∃ text, c.dump = .ok text) ↔ ∃ text, d.dump = .ok text) ∧
    ((∃ text, c.dumpPretty = .ok text) ↔ ∃ text, d.dumpPretty = .ok text) := by
  have hpaths := (Config.same_iff.mp h).2.isText_iff
  simp only [Config.dump, Config.dumpPretty, exists_map_ok_iff, Settings.exists_toJson_iff, hpaths,
    and_self]

-- The two bytes of one character, with a slash between them and with more than a slash.
def Config.cut : Config := Settings.draft { rootDir := ⟨[0xC3, 0x2F, 0xA9]⟩ }

def Config.cutWide : Config := Settings.draft { rootDir := ⟨[0xC3, 0x2F, 0x2E, 0x2F, 0xA9, 0x2F]⟩ }

theorem Config.dumpable_iff_of_same_cut :
    Config.cut.same Config.cutWide = true ∧
    (¬∃ text, Config.cut.dump = .ok text) ∧ (¬∃ text, Config.cutWide.dump = .ok text) ∧
    (¬∃ text, Config.cut.dumpPretty = .ok text) ∧
    ¬∃ text, Config.cutWide.dumpPretty = .ok text := by
  have hsame : Config.cut.same Config.cutWide = true := by decide +kernel
  have hcompact : Config.cut.dump = .error .pathNotText := by decide +kernel
  have hpretty : Config.cut.dumpPretty = .error .pathNotText := by decide +kernel
  have hfails := exists_error_iff.mp ⟨_, hcompact⟩
  have hfailsPretty := exists_error_iff.mp ⟨_, hpretty⟩
  obtain ⟨hdump, hdumpPretty⟩ := Config.dumpable_iff_of_same _ _ hsame
  exact ⟨hsame, hfails, mt hdump.mpr hfails, hfailsPretty, mt hdumpPretty.mpr hfailsPretty⟩

end DocRun
