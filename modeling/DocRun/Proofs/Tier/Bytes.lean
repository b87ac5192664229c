import DocRun.Proofs.Config.Marks
import DocRun.Proofs.Tier.Readers
import DocRun.Proofs.Utf8.Boundary
import DocRun.Proofs.Utf8.Segments

namespace DocRun.Tier

theorem encode_name (tier : Tier) :
    Utf8.encode tier.name.toList = tier.name.toList.map fun c => UInt8.ofNat c.toNat := by
  cases tier <;> exact Utf8.encode_of_ascii (by simp [name])

theorem ofBytes_eq_ok_iff {bytes : List UInt8} {tier : Tier} :
    ofBytes bytes = .ok tier ↔ bytes = Utf8.encode tier.name.toList := by
  constructor
  · intro h
    rw [ofBytes] at h
    split at h
    · rename_i found hfound
      obtain rfl := Except.ok.inj h
      have hbytes := List.find?_some hfound
      exact (of_decide_eq_true hbytes).symm
    · cases h
  · rintro rfl
    rw [ofBytes_encode, ofName, ofName?_name]

theorem ofBytes_of_ne {bytes : List UInt8} (h : ∀ tier : Tier, ofBytes bytes ≠ .ok tier) :
    ofBytes bytes = .error (.unknownName (String.ofList (Utf8.lossy bytes))) := by
  rw [ofBytes] at h ⊢
  split
  · rename_i tier hfound
    simp only [hfound] at h
    exact absurd rfl (h tier)
  · rfl

-- Bytes are a tier if they are the ASCII bytes of its name, and any other bytes are named in the
-- message as text. The text comes from the one way to cut the bytes up, which keeps the encodings
-- of characters and puts one U+FFFD in place of each ill-formed part. The bytes that it replaces
-- are the ones that a configuration shows by their numbers where it holds them as a path.
theorem ofBytes_decides (bytes : List UInt8) :
    (∀ tier, ofBytes bytes = .ok tier ↔
      bytes = tier.name.toList.map fun c => UInt8.ofNat c.toNat) ∧
    ((∀ tier, ofBytes bytes ≠ .ok tier) →
      ∃ problem, ofBytes bytes = .error problem ∧ ∀ hidden, problem.message hidden =
        "unknown variant `" ++ String.ofList (Utf8.lossy bytes) ++
          "`, expected one of `full`, `online`, `server`") ∧
    (∀ text, bytes = Utf8.encode text → Utf8.lossy bytes = text) ∧
    (∀ ps, Utf8.Cut bytes ps ↔ ps = Utf8.pieces bytes) ∧
    (∀ ps, Utf8.Cut bytes ps → Utf8.lossy bytes = ps.map Utf8.Piece.lossyChar ∧
      ∀ part, .stray part ∈ ps → 0 < part.length ∧ part.length ≤ 3) ∧
    (∀ text v, text ≠ [] →
      Utf8.lossy (bytes ++ (Utf8.encode text ++ v)) = Utf8.lossy bytes ++ (text ++ Utf8.lossy v)) ∧
    (∀ a v, a < 0x80 →
      Utf8.lossy (bytes ++ a :: v) = Utf8.lossy bytes ++ Char.ofNat a.toNat :: Utf8.lossy v) ∧
    ∀ hidden,
      Quoted.marks (Outline.inner (Quoted.bytes hidden bytes)) =
        (Utf8.pieces bytes).flatMap Quoted.marksOf ∧
      ∀ config : Config,
        ∀ shown ∈ [(config.outline hidden).inline, (config.outline hidden).stacked 0],
          (Quoted.marks (Outline.inner shown)).filterMap Quoted.Mark.byte? =
            config.allPaths.flatMap Path.strays := by
  refine ⟨?_, ?_, ?_, fun ps => Utf8.cut_iff, ?_,
    fun text v h => Utf8.lossy_append_encode h bytes v,
    fun a v ha => Utf8.lossy_append_ascii ha bytes v,
    fun hidden => ⟨(Outline.shows_ofPath hidden ⟨bytes⟩).eq, fun config shown hs => ?_⟩⟩
  · intro tier
    rw [ofBytes_eq_ok_iff, encode_name]
  · intro h
    exact ⟨_, ofBytes_of_ne h, fun hidden => rfl⟩
  · rintro text rfl
    exact Utf8.lossy_encode text
  · intro ps hps
    obtain rfl := Utf8.cut_iff.mp hps
    exact ⟨rfl, fun part hp => hps.length_stray hp⟩
  · obtain ⟨hinline, hstacked⟩ := config.marks_inner hidden
    rw [← config.filterMap_marks]
    rcases List.mem_cons.mp hs with rfl | hs
    · rw [hinline]
    · obtain rfl := List.mem_singleton.mp hs
      rw [hstacked]

-- A form that breaks off before another one, a surrogate, and bytes that start nothing.
def broken : List UInt8 := [0x66, 0xE2, 0x82, 0xF0, 0x90, 0x80, 0xED, 0xA0, 0x80, 0xC0, 0x41]

def holdingBroken : Config where
  rootDir := ⟨broken⟩
  homepage := some ⟨[0x2F, 0xF4, 0x90]⟩
  initialized := true

theorem ofBytes_decides_broken :
    (∃ problem, ofBytes broken = .error problem ∧ ∀ hidden, problem.message hidden =
      "unknown variant `" ++ "f\uFFFD\uFFFD\uFFFD\uFFFD\uFFFD\uFFFDA" ++
        "`, expected one of `full`, `online`, `server`") ∧
    Utf8.Cut broken [.scalar 'f', .stray [0xE2, 0x82], .stray [0xF0, 0x90, 0x80], .stray [0xED],
      .stray [0xA0], .stray [0x80], .stray [0xC0], .scalar 'A'] ∧
    Utf8.lossy (broken ++ 0x0A :: [0x80]) = Utf8.lossy broken ++ '\n' :: Utf8.lossy [0x80] ∧
    (Quoted.marks (Outline.inner (holdingBroken.outline isHidden).inline)).filterMap
      Quoted.Mark.byte? = [0xE2, 0x82, 0xF0, 0x90, 0x80, 0xED, 0xA0, 0x80, 0xC0, 0xF4, 0x90] := by
  obtain ⟨haccepted, hrefused, -, hcut, -, -, hascii, hshown⟩ := ofBytes_decides broken
  have hne : ∀ tier, ofBytes broken ≠ .ok tier := by
    intro tier h
    have hname := (haccepted tier).mp h
    cases tier <;> exact absurd hname (by decide)
  have hlossy : String.ofList (Utf8.lossy broken) = "f\uFFFD\uFFFD\uFFFD\uFFFD\uFFFD\uFFFDA" := by
    decide +kernel
  obtain ⟨problem, he, hm⟩ := hrefused hne
  refine ⟨⟨problem, he, fun hidden => ?_⟩, (hcut _).mpr (by decide +kernel),
    hascii 0x0A [0x80] (by decide), ?_⟩
  · rw [hm, hlossy]
  · rw [(hshown isHidden).2 _ _ List.mem_cons_self]
    decide +kernel

end DocRun.Tier
